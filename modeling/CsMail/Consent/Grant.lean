import CsMail.External.Conversation
import CsMail.External.Message

/-! Consent to decrypt: who may read which messages for what, and until when.

A grant is an explicit list of messages with one use; there is no wildcard. Whatever its
constructor checks, a revocation keeps, so it is part of the grant. -/
namespace CsMail
open Library

def maxScopeMessages : ℕ := 100

def maxGrantLifetimeMs : ℕ := 86_400_000

/-! ### What a grant is for -/

/-- A set of messages, neither empty nor large, none of them unnamed. -/
structure ContentScope where
  messages : SortedMap MessageId Unit
  bounded : messages.keys ≠ [] ∧ messages.keys.length ≤ maxScopeMessages ∧ ∀ m ∈ messages.keys, m.val ≠ 0

instance : DecidableEq ContentScope := fun a b =>
  decidable_of_iff (a.messages = b.messages) (by
    cases a
    cases b
    simp)

/-- `ContentScope::try_from`. -/
def ContentScope.new (messages : SortedMap MessageId Unit) : Except ConsentError ContentScope :=
  if h : messages.keys ≠ [] ∧ messages.keys.length ≤ maxScopeMessages ∧ ∀ m ∈ messages.keys, m.val ≠ 0
  then .ok ⟨messages, h⟩ else .error .invalid

inductive DecryptionPurpose
  | display
  | csqdProcessing (operation : Text)
  deriving DecidableEq

/-- An ASCII letter or digit, or one of `._-`. -/
def isOperationByte (b : UInt8) : Bool :=
  (48 ≤ b ∧ b ≤ 57) ∨ (65 ≤ b ∧ b ≤ 90) ∨ (97 ≤ b ∧ b ≤ 122) ∨ b ∈ [46, 95, 45]

/-- A bounded explicit processing operation, never a wildcard purpose. -/
def DecryptionPurpose.validate : DecryptionPurpose → Except ConsentError Unit
  | display => .ok ()
  | csqdProcessing operation => refuseIf (operation = [] ∨ 64 < operation.utf8.length ∨
      operation.utf8.all isOperationByte = false) .invalid

inductive DecryptionActor
  | userDevice (key : OperationalKeyRef)
  | csqdProcessor (key : OperationalKeyRef)
  deriving DecidableEq

structure GrantUse where
  actor : DecryptionActor
  purpose : DecryptionPurpose
  destination : EndpointPublicKey
  deriving DecidableEq

namespace GrantUse

/-- The key of the actor: devices display, and processors process. -/
def key (u : GrantUse) : Except ConsentError OperationalKeyRef :=
  match u.actor, u.purpose with
  | .userDevice key, .display | .csqdProcessor key, .csqdProcessing _ => .ok key
  | _, _ => .error .invalid

def validate (u : GrantUse) : Except ConsentError Unit := do
  u.purpose.validate
  let key ← u.key
  refuseIf (key.val = 0 ∨ u.destination.reference.val = 0 ∨ u.destination.bytes = zero32) .invalid

end GrantUse

/-! ### Grants -/

inductive GrantState
  | active
  | revoked (time : CanonicalTime)
  deriving DecidableEq

inductive GrantStatus
  | active
  | expired
  | revoked
  deriving DecidableEq

structure GrantTerms where
  id : GrantId
  account : AccountId
  persona : ProtocolIdentity
  issuer : OperationalKeyRef
  scope : ContentScope
  usage : GrantUse
  issuedAt : CanonicalTime
  expiresAt : CanonicalTime
  deriving DecidableEq

structure GrantRecord where
  terms : GrantTerms
  state : GrantState
  deriving DecidableEq

namespace GrantState

/-- Nothing is revoked before it is issued. -/
def since (issuedAt : CanonicalTime) : GrantState → Bool
  | active => true
  | revoked time => issuedAt ≤ time

end GrantState

/-- A device's own use is for the device that consents. -/
def DecryptionActor.issuedBy (issuer : OperationalKeyRef) : DecryptionActor → Bool
  | userDevice key => key = issuer
  | csqdProcessor _ => true

/-- The checks of `DecryptionGrant::try_from`. -/
def GrantRecord.validate (r : GrantRecord) : Except ConsentError Unit := do
  r.terms.usage.validate
  refuseIf (r.terms.account.val = 0 ∨ r.terms.persona.val = 0 ∨ r.terms.issuer.val = 0 ∨
    r.terms.expiresAt ≤ r.terms.issuedAt ∨
    maxGrantLifetimeMs < r.terms.expiresAt.millis - r.terms.issuedAt.millis ∨
    r.state.since r.terms.issuedAt = false ∨ r.terms.usage.actor.issuedBy r.terms.issuer = false) .invalid

/-- The state enters the checks by its time alone. -/
theorem GrantRecord.validate_eq_ok {r : GrantRecord} : r.validate = .ok () ↔
    (GrantRecord.mk r.terms .active).validate = .ok () ∧ r.state.since r.terms.issuedAt = true := by
  simp only [validate, bind_eq_ok, refuseIf_eq_ok, not_or, Bool.not_eq_false]
  constructor
  · rintro ⟨_, huse, haccount, hpersona, hissuer, hexpires, hlifetime, hsince, hactor⟩
    exact ⟨⟨(), huse, haccount, hpersona, hissuer, hexpires, hlifetime, rfl, hactor⟩, hsince⟩
  · rintro ⟨⟨_, huse, haccount, hpersona, hissuer, hexpires, hlifetime, -, hactor⟩, hsince⟩
    exact ⟨(), huse, haccount, hpersona, hissuer, hexpires, hlifetime, hsince, hactor⟩

structure DecryptionGrant where
  record : GrantRecord
  valid : record.validate = .ok ()

instance : DecidableEq DecryptionGrant := fun a b =>
  decidable_of_iff (a.record = b.record) (by
    cases a
    cases b
    simp)

namespace DecryptionGrant

def tryFrom (r : GrantRecord) : Except ConsentError DecryptionGrant :=
  match h : r.validate with
  | .ok () => .ok ⟨r, h⟩
  | .error e => .error e

/-- Checks ownership identifiers, recipient role, scope and bounded lifetime. -/
def issue (terms : GrantTerms) : Except ConsentError DecryptionGrant := tryFrom ⟨terms, .active⟩

def terms (g : DecryptionGrant) : GrantTerms := g.record.terms

def state (g : DecryptionGrant) : GrantState := g.record.state

def statusAt (g : DecryptionGrant) (now : CanonicalTime) : GrantStatus :=
  match g.state with
  | .revoked _ => .revoked
  | .active => if g.terms.expiresAt ≤ now then .expired else .active

/-- Repeated revocation preserves the first fact. -/
def revoke (g : DecryptionGrant) (time : CanonicalTime) : Except ConsentError DecryptionGrant :=
  if h : time < g.terms.issuedAt then .error .invalid
  else match g.state with
  | .active => .ok ⟨⟨g.terms, .revoked time⟩, GrantRecord.validate_eq_ok.mpr
      ⟨(GrantRecord.validate_eq_ok.mp g.valid).1, decide_eq_true (not_lt.mp h)⟩⟩
  | .revoked _ => .ok g

/-- Consent cannot confer content entitlement: the application checks retained copies separately. -/
def authorize (g : DecryptionGrant) (actor : DecryptionActor) (purpose : DecryptionPurpose) (message : MessageId)
    (now : CanonicalTime) : Except ConsentError Unit := do
  refuseIf (now < g.terms.issuedAt) .unauthorized
  refuseIf (g.statusAt now = .expired) .expired
  refuseIf (g.statusAt now = .revoked) .revoked
  refuseIf (g.terms.usage.actor ≠ actor ∨ g.terms.usage.purpose ≠ purpose ∨
    g.terms.scope.messages.contains message = false) .scopeDenied

theorem issue_eq_ok {terms : GrantTerms} {g : DecryptionGrant} (h : issue terms = .ok g) :
    g.terms = terms ∧ g.state = .active := by
  unfold issue tryFrom at h
  split at h
  · cases h
    exact ⟨rfl, rfl⟩
  · cases h

variable {g g' : DecryptionGrant} {time now : CanonicalTime} {actor : DecryptionActor}
  {purpose : DecryptionPurpose} {message : MessageId}

theorem revoke_eq_ok (h : g.revoke time = .ok g') :
    g'.terms = g.terms ∧ g'.state ≠ .active ∧ (g.state ≠ .active → g' = g) := by
  unfold revoke at h
  split_ifs at h
  split at h
  · next hactive =>
    cases h
    exact ⟨rfl, fun hstate => GrantState.noConfusion hstate, fun hnot => absurd hactive hnot⟩
  · next hrevoked =>
    cases h
    refine ⟨rfl, fun hactive => ?_, fun _ => rfl⟩
    rw [hrevoked] at hactive
    cases hactive

theorem statusAt_active : g.statusAt now = .active ↔ g.state = .active ∧ now < g.terms.expiresAt := by
  unfold statusAt
  split
  · next hrevoked => simp [hrevoked]
  · next hactive =>
    split_ifs with hexpired
    · simp [hactive, hexpired]
    · simp [hactive, not_le.mp hexpired]

theorem authorize_eq_ok {u : Unit} : g.authorize actor purpose message now = .ok u ↔
    g.terms.issuedAt ≤ now ∧ (g.state = .active ∧ now < g.terms.expiresAt) ∧ g.terms.usage.actor = actor ∧
      g.terms.usage.purpose = purpose ∧ g.terms.scope.messages.contains message = true := by
  rw [← statusAt_active]
  simp only [authorize, bind_eq_ok, refuseIf_eq_ok, exists_const, not_lt, not_or, not_not, Bool.not_eq_false]
  cases g.statusAt now <;> simp

end DecryptionGrant

end CsMail
