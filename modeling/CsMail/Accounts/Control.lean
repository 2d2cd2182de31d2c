import CsMail.Accounts.Directory
import CsMail.Security.Authority
import CsMail.Wire.Json

/-! Product lifecycle and explicitly granted management authority.

A control always has a persona and a manager; what its constructor checks of them is kept
by every transition, so it is part of the control. -/
namespace CsMail
open Library

inductive AccountStatus
  | active
  | suspended
  | closed
  deriving DecidableEq

/-- A set of identifiers that is not empty and does not have the empty one. -/
def Named {k : IdentKind} (ids : SortedMap (Ident k) Unit) : Prop :=
  ids.keys ≠ [] ∧ ∀ i ∈ ids.keys, i.val ≠ 0

instance {k : IdentKind} (ids : SortedMap (Ident k) Unit) : Decidable (Named ids) := instDecidableAnd

structure AccountControl where
  status : AccountStatus
  revision : U64
  personas : SortedMap ProtocolIdentity Unit
  managers : SortedMap OperationalKeyRef Unit
  inhabited : Named personas
  managed : Named managers

/-- The stored form of a control. -/
structure StoredControl where
  status : AccountStatus
  revision : U64
  personas : SortedMap ProtocolIdentity Unit
  managers : SortedMap OperationalKeyRef Unit
  deriving DecidableEq

namespace Named
variable {k : IdentKind} {ids : SortedMap (Ident k) Unit} {i : Ident k}

theorem singleton (h : i.val ≠ 0) : Named ((∅ : SortedMap (Ident k) Unit).insert i ()) :=
  ⟨List.cons_ne_nil _ _, fun j hj => by
    rw [List.mem_singleton.mp hj]
    exact h⟩

theorem insert (hids : Named ids) (h : i.val ≠ 0) : Named (ids.insert i ()) := by
  refine ⟨List.ne_nil_of_mem (SortedMap.mem_keys.mpr ⟨(), SortedMap.get?_insert_self ..⟩), fun j hj => ?_⟩
  obtain ⟨u, hu⟩ := SortedMap.mem_keys.mp hj
  rw [SortedMap.get?_insert] at hu
  split_ifs at hu with heq
  · rw [heq]
    exact h
  · exact hids.2 j (SortedMap.mem_keys.mpr ⟨u, hu⟩)

/-- Something is left when one of several is taken away. -/
theorem erase (hids : Named ids) (h : 1 < ids.keys.length) : Named (ids.erase i) := by
  refine ⟨fun hempty => ?_, fun j hj => ?_⟩
  · have hall : ∀ j ∈ ids.keys, j = i := fun j hj => by
      by_contra hne
      obtain ⟨u, hu⟩ := SortedMap.mem_keys.mp hj
      have : j ∈ (ids.erase i).keys := SortedMap.mem_keys.mpr ⟨u, by rw [SortedMap.get?_erase, if_neg hne, hu]⟩
      rw [hempty] at this
      cases this
    have hle := (List.nodup_replicate (n := ids.keys.length)).mp
      (List.eq_replicate_of_mem hall ▸ ids.keys_nodup)
    omega
  · obtain ⟨u, hu⟩ := SortedMap.mem_keys.mp hj
    rw [SortedMap.get?_erase] at hu
    split_ifs at hu
    exact hids.2 j (SortedMap.mem_keys.mpr ⟨u, hu⟩)

end Named

/-! ### Commands -/

structure NewOperationalKey where
  reference : OperationalKeyRef
  actor : ActorRef
  key : Bytes32
  proof : Bytes
  deriving DecidableEq

inductive AccountCommand
  | registerKey (key : NewOperationalKey)
  | setStatus (status : AccountStatus)
  | addPersona (persona : ProtocolIdentity)
  | grantManager (key : OperationalKeyRef)
  | revokeManager (key : OperationalKeyRef)
  deriving DecidableEq

namespace AccountControl

instance : DecidableEq AccountControl := fun a b =>
  decidable_of_iff (a.status = b.status ∧ a.revision = b.revision ∧ a.personas = b.personas ∧
    a.managers = b.managers) (by cases a; cases b; simp)

def tryFrom (v : StoredControl) : Except AccountError AccountControl :=
  if h : Named v.personas ∧ Named v.managers then .ok ⟨v.status, v.revision, v.personas, v.managers, h.1, h.2⟩
  else .error .invalidInput

def new (persona : ProtocolIdentity) (manager : OperationalKeyRef) : Except AccountError AccountControl :=
  tryFrom ⟨.active, 0, SortedMap.insert ∅ persona (), SortedMap.insert ∅ manager ()⟩

def toStored (c : AccountControl) : StoredControl := ⟨c.status, c.revision, c.personas, c.managers⟩

theorem tryFrom_toStored (c : AccountControl) : tryFrom c.toStored = .ok c := dif_pos ⟨c.inhabited, c.managed⟩

def isManager (c : AccountControl) (key : OperationalKeyRef) : Bool := c.managers.contains key

def allowsService (c : AccountControl) : Bool := c.status = .active

/-- Used only after an ordered identity-security event was verified. -/
def applySecurityChange (c : AccountControl) (replacementManager : Option OperationalKeyRef) :
    Except AccountError AccountControl :=
  let status := if c.status = .closed then .closed else .suspended
  match replacementManager with
  | none => do
    let revision ← okOr (Checked.succ c.revision) .invalidInput
    .ok {c with revision, status}
  | some key =>
    if h : key.val = 0 then .error .invalidInput
    else do
      let revision ← okOr (Checked.succ c.revision) .invalidInput
      .ok {c with revision, status, managers := SortedMap.insert ∅ key (), managed := .singleton h}

/-- What a command changes, apart from the revision. -/
def change (c : AccountControl) : AccountCommand → Except AccountError AccountControl
  | .registerKey key => do
    refuseIf (¬(c.allowsService = true ∧ key.reference.val ≠ 0 ∧
      key.actor.persona.any c.personas.contains = true)) .invalidInput
    .ok c
  | .setStatus status => .ok {c with status}
  | .addPersona persona =>
    if h : c.allowsService = true ∧ persona.val ≠ 0 ∧ c.personas.contains persona = false then
      .ok {c with personas := c.personas.insert persona (), inhabited := c.inhabited.insert h.2.1}
    else .error .invalidInput
  | .grantManager key =>
    if h : c.allowsService = true ∧ key.val ≠ 0 ∧ c.managers.contains key = false then
      .ok {c with managers := c.managers.insert key (), managed := c.managed.insert h.2.1}
    else .error .invalidInput
  | .revokeManager key =>
    if h : 1 < c.managers.keys.length ∧ c.managers.contains key = true then
      .ok {c with managers := c.managers.erase key, managed := c.managed.erase h.1}
    else .error .invalidInput

/-- Pure transition: signature, ownership and revision are verified first. -/
def apply (c : AccountControl) (command : AccountCommand) : Except AccountError AccountControl := do
  refuseIf (c.status = .closed) .invalidInput
  let next ← c.change command
  let revision ← okOr (Checked.succ c.revision) .invalidInput
  .ok {next with revision}

end AccountControl

/-! ### What is signed -/

def ActorRef.json : ActorRef → JsonValue
  | sender identity => .object [("Sender".toList, .unsigned identity.val)]
  | recipient identity => .object [("Recipient".toList, .unsigned identity.val)]
  | provider id => .object [("Provider".toList, .unsigned id.val)]
  | scheduler id => .object [("Scheduler".toList, .unsigned id.val)]

def AccountStatus.json : AccountStatus → JsonValue
  | active => .string "Active".toList
  | suspended => .string "Suspended".toList
  | closed => .string "Closed".toList

def NewOperationalKey.json (k : NewOperationalKey) : JsonValue :=
  .object [("reference".toList, .unsigned k.reference.val), ("actor".toList, k.actor.json),
    ("key".toList, Bytes.json k.key.toList), ("proof".toList, Bytes.json k.proof)]

def AccountCommand.json : AccountCommand → JsonValue
  | registerKey key => .object [("RegisterKey".toList, key.json)]
  | setStatus status => .object [("SetStatus".toList, status.json)]
  | addPersona persona => .object [("AddPersona".toList, .unsigned persona.val)]
  | grantManager key => .object [("GrantManager".toList, .unsigned key.val)]
  | revokeManager key => .object [("RevokeManager".toList, .unsigned key.val)]

/-- A signature of bytes that may fail to be encoded, checked strictly. -/
def verifySigned [Crypto] {ε : Type} (key : Bytes32) (bytes : Except ε Bytes) (signature : Bytes) (e : ε) :
    Except ε Unit := do
  refuseIf (Crypto.validKey key = false) e
  let message ← bytes
  refuseIf (signature.length ≠ 64) e
  refuseIf (Crypto.verifyStrict key message signature = false) e

namespace NewOperationalKey
variable [Json]

def bytes (k : NewOperationalKey) (account : AccountId) (product : Text) : Except AccountError Bytes :=
  okOr (Json.toVec (.array [.string "cs-mail/account-key-possession/v1".toList, .unsigned account.val,
    .string product, .unsigned k.reference.val, k.actor.json, Bytes.json k.key.toList])) .invalidInput

/-- Proof of possession, under the new key itself. -/
def verify [Crypto] (k : NewOperationalKey) (account : AccountId) (product : Text) : Except AccountError Unit :=
  verifySigned k.key (k.bytes account product) k.proof .invalidInput

end NewOperationalKey

structure SignedAccountCommand where
  account : AccountId
  operationalKey : OperationalKeyRef
  expectedRevision : U64
  idempotencyKey : IdempotencyKey
  product : Text
  command : AccountCommand
  signature : Bytes
  deriving DecidableEq

namespace SignedAccountCommand
variable [Json]

def bytes (s : SignedAccountCommand) : Except AccountError Bytes := do
  refuseIf (s.product = [] ∨ s.account.val = 0) .invalidInput
  okOr (Json.toVec (.array [.string "cs-mail/product-account-command/v1".toList, .unsigned s.account.val,
    .unsigned s.operationalKey.val,
    .unsigned ⟨s.expectedRevision.val, s.expectedRevision.isLt.trans (by decide)⟩,
    .unsigned s.idempotencyKey.val, .string s.product, s.command.json])) .invalidInput

def verify [Crypto] (s : SignedAccountCommand) (key : Bytes32) : Except AccountError Unit :=
  verifySigned key s.bytes s.signature .invalidInput

end SignedAccountCommand

/-! ### Key ownership -/

inductive KeyAuthorityOwner
  | account (account : AccountId)
  | provider (provider : ProviderRef)
  | scheduler (provider : ProviderRef)
  deriving DecidableEq

/-- Exclusive ownership of a key, whichever registry uses it. -/
inductive KeyClaim
  | reserved (enrollment : Text) (intendedOwner : AccountId) (actor : ActorRef) (key : Bytes32)
  | assigned (owner : KeyAuthorityOwner) (actor : ActorRef) (key : Bytes32)
  deriving DecidableEq

end CsMail
