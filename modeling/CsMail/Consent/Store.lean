import CsMail.Application.AccountRuns
import CsMail.Consent.Service
import Mathlib.Data.Prod.Lex

/-! What consent is decided on, and where its effects are stored.

One transaction loads a context, decides and stores; between two of them accounts, custody,
processors and retained copies change by transactions of their own. -/
namespace CsMail
open Library

structure ConsentStore where
  accounts : SortedMap AccountId ManagedAccount
  /-- The account of a persona. -/
  owners : SortedMap ProtocolIdentity AccountId
  custody : Option EndpointPublicKey
  processors : SortedMap OperationalKeyRef ProcessorRegistration
  /-- What is left of the copies an owner retains, with the recovery copy beside it. -/
  retained : SortedMap (MessageId ×ₗ ProtocolIdentity) RetainedRecovery
  grants : SortedMap GrantId DecryptionGrant
  receipts : SortedMap (AccountId ×ₗ IdempotencyKey) ConsentReceipt

def ConsentStore.empty : ConsentStore := ⟨∅, ∅, none, ∅, ∅, ∅, ∅⟩

namespace SignedConsentRequest

/-- The processor a request is about: its actor, or the one it is to authorize. -/
def processorKey (r : SignedConsentRequest) : Option OperationalKeyRef :=
  match r.actor, r.command with
  | .csqdProcessor key, _ => some key
  | .userDevice _, .authorize _ _ usage _ =>
    match usage.actor with
    | .csqdProcessor key => some key
    | .userDevice _ => none
  | .userDevice _, _ => none

def messages (r : SignedConsentRequest) : List MessageId :=
  match r.command with
  | .authorize _ scope _ _ => scope.messages.keys
  | .read _ message _ => [message]
  | .revoke _ | .inspect _ => []

/-- Where the receipt of a request is filed. -/
def slot (r : SignedConsentRequest) : AccountId ×ₗ IdempotencyKey := toLex (r.account, r.operation)

end SignedConsentRequest

namespace ConsentStore

/-! ### Custody and processors -/

def custodyKey (s : ConsentStore) : Except ConsentError EndpointPublicKey := do
  let key ← okOr s.custody .unavailable
  refuseIf (key.reference.val = 0 ∨ key.bytes = zero32) .invalid
  .ok key

/-- Rejects empty or replaced keys. -/
def configureCustody (s : ConsentStore) (key : EndpointPublicKey) : Except ConsentError ConsentStore := do
  refuseIf (key.reference.val = 0 ∨ key.bytes = zero32) .invalid
  let next := {s with custody := some (s.custody.getD key)}
  let stored ← next.custodyKey
  refuseIf (stored ≠ key) .conflict
  .ok next

section
variable [Crypto]

def loadProcessor (s : ConsentStore) (key : OperationalKeyRef) :
    Except ConsentError (Option ProcessorRegistration) :=
  match s.processors.get? key with
  | none => .ok none
  | some p => do
    p.validate
    refuseIf (p.key ≠ key) .invalid
    .ok (some p)

/-- Rejects key reuse or a malformed processor binding. -/
def configureContentProcessor (s : ConsentStore) (processor : ProcessorRegistration) :
    Except ConsentError ConsentStore := do
  processor.validate
  let next := if s.processors.contains processor.key = true then s
    else {s with processors := s.processors.insert processor.key processor}
  let stored ← next.loadProcessor processor.key
  refuseIf (stored ≠ some processor) .conflict
  .ok next

/-- Disables new use without altering historical grants. -/
def disableContentProcessor (s : ConsentStore) (key : OperationalKeyRef) : Except ConsentError ConsentStore := do
  let stored ← s.loadProcessor key
  let processor ← okOr stored .unavailable
  .ok {s with processors := s.processors.insert key {processor with active := false}}

/-! ### Requests -/

def processorFor (s : ConsentStore) (r : SignedConsentRequest) :
    Except ConsentError (Option ProcessorRegistration) :=
  match r.processorKey with
  | some key => s.loadProcessor key
  | none => .ok none

/-- The copies of a request's messages that its persona retains. -/
def retainedCopies (s : ConsentStore) (r : SignedConsentRequest) : SortedMap MessageId RetainedRecovery :=
  r.messages.foldl (fun m message =>
    match s.retained.get? (toLex (message, r.persona)) with
    | some copy => m.insert message copy
    | none => m) ∅

variable [ConsentJson]

/-- Nothing private is looked up before the request is authenticated. -/
def loadContext (s : ConsentStore) (r : SignedConsentRequest) (now : CanonicalTime) :
    Except ConsentError ConsentContext := do
  let account ← okOr (s.accounts.get? r.account) .unauthorized
  refuseIf (s.owners.get? r.persona ≠ some r.account) .unauthorized
  let processor ← s.processorFor r
  let _ ← ConsentService.authenticate r account.state processor now
  let custodyKey ← s.custodyKey
  match s.receipts.get? r.slot with
  | some prior => .ok ⟨account.state, custodyKey, processor, none, ∅, some prior⟩
  | none => do
    let grant := s.grants.get? r.command.grantId
    refuseIf (grant.any (fun g => g.terms.id ≠ r.command.grantId) = true) .invalid
    .ok ⟨account.state, custodyKey, processor, grant, s.retainedCopies r, none⟩

omit [Crypto] [ConsentJson] in
/-- A grant replaces the one of its identity; a receipt is filed for good. -/
def persist (s : ConsentStore) (r : SignedConsentRequest) (effects : ConsentEffects) : ConsentStore :=
  {s with
    grants := (effects.grant.map fun g => s.grants.insert g.terms.id g).getD s.grants
    receipts := s.receipts.insert r.slot effects.receipt}

/-- The clock is read when the context is loaded, and once more for the decision. -/
def consentTransaction (s : ConsentStore) (r : SignedConsentRequest) (custodian : LocalKeyCustody)
    (loaded now : CanonicalTime) : Except ConsentError (ConsentResponse × ConsentStore) := do
  let context ← s.loadContext r loaded
  let decision ← ConsentService.decide r context custodian now
  .ok (decision.response, (decision.effects.map (s.persist r)).getD s)

end

end ConsentStore

/-! ### Calls -/

/-- Whatever changes something a request is decided on. Rows of personas come by calls of
their own; a request sees them in no order it does not see them in otherwise. -/
inductive ConsentCall
  | enroll (account : AccountId) (input : EnrollmentInput) (product : Text) (time : CanonicalTime)
  | manage (account : AccountId) (subject : Text) (trust : DecisionVerifier) (input : AccountInput)
  | revokeAccountKey (account : AccountId) (reference : OperationalKeyRef) (expectedVersion : Version)
      (now : CanonicalTime)
  | own (persona : ProtocolIdentity) (account : AccountId)
  | configureCustody (key : EndpointPublicKey)
  | configureContentProcessor (processor : ProcessorRegistration)
  | disableContentProcessor (key : OperationalKeyRef)
  | retain (message : MessageId) (owner : ProtocolIdentity) (copy : RetainedRecovery)
  | erase (message : MessageId) (owner : ProtocolIdentity)
  | consent (request : SignedConsentRequest) (custodian : LocalKeyCustody) (loaded now : CanonicalTime)

inductive ConsentFailure
  | consent (error : ConsentError)
  | account (error : AccountFailure)
  | security (error : SecurityError)
  | missing
  | duplicate

/-- One transaction; a refused one stores nothing. -/
def ConsentStore.call [Crypto] [ConsentJson] [Json] [IdentityContract] (s : ConsentStore) :
    ConsentCall → Except ConsentFailure ConsentStore
  | .enroll account input product time => do
    refuseIf (s.accounts.contains account = true) .duplicate
    let m ← (ManagedAccount.enroll input product time).mapError .account
    .ok {s with accounts := s.accounts.insert account m}
  | .manage account subject trust input => do
    let m ← okOr (s.accounts.get? account) .missing
    let m ← ((input.method subject trust).accepted m).mapError .account
    .ok {s with accounts := s.accounts.insert account m}
  | .revokeAccountKey account reference expectedVersion now => do
    let m ← okOr (s.accounts.get? account) .missing
    let registry ← ((KeyRegistry.revoke reference expectedVersion now).accepted m.state.registry).mapError .security
    .ok {s with accounts := s.accounts.insert account {m with state := {m.state with registry}}}
  | .own persona account => do
    refuseIf (s.owners.contains persona = true) .duplicate
    .ok {s with owners := s.owners.insert persona account}
  | .configureCustody key => (s.configureCustody key).mapError .consent
  | .configureContentProcessor processor => (s.configureContentProcessor processor).mapError .consent
  | .disableContentProcessor key => (s.disableContentProcessor key).mapError .consent
  | .retain message owner copy => .ok {s with retained := s.retained.insert (toLex (message, owner)) copy}
  | .erase message owner => .ok {s with retained := s.retained.erase (toLex (message, owner))}
  | .consent request custodian loaded now => do
    let (_, next) ← (s.consentTransaction request custodian loaded now).mapError .consent
    .ok next

end CsMail
