import CsMail.Application.Store
import CsMail.Finance.Funding
import CsMail.Guests.History

/-! The store of guest histories, and the transaction that opens a guest's relationship.

Beside the relationships and the histories they share stand the subjects of the identities that
write, the history each piece of evidence is linked to for a recipient, and the merges there have
been. A piece of evidence is filed under its key, here under itself, and an aggregate under the
reference of its relationship. An approach is carried out as a whole or not at all. -/
namespace CsMail
open Library

/-! ### References -/

/-- `PrivacyDeriver`, as far as histories go: HMAC-SHA256 under the principal secret. -/
structure PrivacyDeriver where
  mac : Bytes → Bytes32

namespace PrivacyDeriver
variable (d : PrivacyDeriver)

def derivationVersion : U16 := 1

def derive (label domain : Bytes) (left right : U128) : Bytes32 :=
  d.mac (label ++ beBytes 8 domain.length ++ domain ++ beBytes 16 left.val ++ beBytes 16 right.val)

/-- A guest's own request history with one recipient, before any evidence links it to another. -/
def guestRequestHistoryRef (domain : Bytes) (guest recipient : ProtocolIdentity) : RequestHistoryRef :=
  ⟨derivationVersion, d.derive (byteString "cs-mail/guest-request-history/v1") domain guest.val recipient.val⟩

/-- The history two linked histories merge into; independent of their order. -/
def mergedRequestHistoryRef (domain : Bytes) (first second : RequestHistoryRef) : RequestHistoryRef :=
  let pair := if ofBeBytes first.bytes.toList ≤ ofBeBytes second.bytes.toList then (first, second) else (second, first)
  ⟨derivationVersion, d.mac (byteString "cs-mail/merged-request-history/v1" ++ beBytes 8 domain.length ++ domain ++
    pair.1.bytes.toList ++ pair.2.bytes.toList)⟩

end PrivacyDeriver

/-! ### The store -/

structure HistoryMerge where
  sources : RequestHistoryRef × RequestHistoryRef
  evidence : List HistoryEvidence
  mergedAt : CanonicalTime
  deriving DecidableEq

structure GuestStore extends StoreState where
  subjects : SortedMap ProtocolIdentity SenderSubject
  links : SortedMap (ProtocolIdentity ×ₗ HistoryEvidence) RequestHistoryRef
  merges : SortedMap RequestHistoryRef HistoryMerge

inductive GuestStoreError
  | pendingCommands
  | senderSubjectConflict
  | guest (error : GuestError)
  | access (error : GuestAccessError)
  | payment (error : PaymentError)
  | engine (error : EngineError)
  | versionConflict
  /-- The database refused the statement. -/
  | database
  deriving DecidableEq

/-- What a deployment derives references and identities with, and the unit it settles in. -/
structure GuestDeployment where
  deriver : PrivacyDeriver
  domain : Bytes32
  unit : SettlementUnit

/-! ### Subjects -/

def subjectRows (subjects : SortedMap ProtocolIdentity SenderSubject) (identity : ProtocolIdentity) (key : Text) :
    List (ProtocolIdentity × SenderSubject) :=
  subjects.entries.filter fun e => e.1 = identity ∨ e.2.key e.1 = key

/-- Registers the subject as the only one of the identity, or confirms it. -/
def registerSubject (subjects : SortedMap ProtocolIdentity SenderSubject) (identity : ProtocolIdentity)
    (subject : SenderSubject) : Except GuestStoreError (SortedMap ProtocolIdentity SenderSubject) := do
  let key := subject.key identity
  let subjects := if subjectRows subjects identity key = [] then subjects.insert identity subject else subjects
  refuseIf (subjectRows subjects identity key ≠ [(identity, subject)]) .senderSubjectConflict
  .ok subjects

/-! ### Statements -/

/-- The same relationship under another request history, after a guest-history merge. -/
def EngineState.withHistory (e : EngineState) (history : RequestHistoryRef) : EngineState :=
  {e with protocol := {e.protocol with relationship := {e.protocol.relationship with history}}}

/-- Creates the aggregate and its request history, if absent. A directed pair has one relationship. -/
def StoreState.bootstrapIn (w : StoreState) (state : ProtocolState) (unit : SettlementUnit) :
    Except GuestStoreError StoreState := do
  refuseIf (state.requests ≠ ∅ ∨ state.quotes ≠ ∅ ∨ state.usedQuotes ≠ ∅) (.engine (.protocol .invalidState))
  let key := state.relationship.key
  let history := state.relationship.history
  refuseIf (w.relationships.contains key.reference = false ∧
    w.relationships.values.any (fun e => e.protocol.relationship.key.sender = key.sender ∧
      e.protocol.relationship.key.recipient = key.recipient) = true) .database
  .ok {
    relationships :=
      if w.relationships.contains key.reference = true then w.relationships
      else w.relationships.insert key.reference (.new state unit)
    histories :=
      if w.histories.contains history = true then w.histories
      else w.histories.insert history (.new history key.recipient state.relationship.changedAt)}

namespace GuestStore
variable (w : GuestStore)

def empty : GuestStore := ⟨.empty, ∅, ∅, ∅⟩

/-- The history a piece of evidence is linked to for a recipient. -/
def link (recipient : ProtocolIdentity) (evidence : HistoryEvidence) : Option RequestHistoryRef :=
  w.links.get? (toLex (recipient, evidence))

def linkedHistory (recipient : ProtocolIdentity) (evidence : HistoryEvidence) :
    Except GuestStoreError (Option RequestHistory) :=
  match w.link recipient evidence with
  | none => .ok none
  | some history => (okOr (w.histories.get? history) .database).map some

def isGuest (identity : ProtocolIdentity) : Bool := (w.subjects.get? identity).any SenderSubject.isGuest

def createHistory (created : Option RequestHistory) : Except GuestStoreError GuestStore :=
  match created with
  | none => .ok w
  | some h => do
    refuseIf (w.histories.contains h.reference = true) .database
    .ok {w with histories := w.histories.insert h.reference h}

/-- Every guest relationship on a merged history moves to the merged one. The source keeps its record
for provenance; nothing refers to it now. -/
def moveSource (recipient : ProtocolIdentity) (merged : RequestHistoryRef) (source : RequestHistoryRef) : GuestStore :=
  {w with
    links := w.links.map fun _ history => if history = source then merged else history
    relationships := w.relationships.map fun _ e =>
      if w.isGuest e.protocol.relationship.key.sender = true ∧
          e.protocol.relationship.key.recipient = recipient ∧ e.protocol.relationship.history = source
        then e.withHistory merged else e}

def mergeSources (recipient : ProtocolIdentity) (decision : HistoryDecision) (mergedAt : CanonicalTime) :
    Except GuestStoreError GuestStore :=
  match decision.merged with
  | none => .ok w
  | some sources => do
    let w := (w.moveSource recipient decision.history sources.1).moveSource recipient decision.history sources.2
    refuseIf (w.merges.contains decision.history = true) .database
    .ok {w with merges := w.merges.insert decision.history ⟨sources, decision.link, mergedAt⟩}

def linkEvidence (recipient : ProtocolIdentity) (decision : HistoryDecision) : GuestStore :=
  let links := decision.link.foldl (fun links e => links.insert (toLex (recipient, e)) decision.history) w.links
  {w with links}

/-! ### Opening a relationship -/

/-- Unresolved captures one guest instrument may hold at once. -/
def guestMaximumUnresolved : U32 := 1

def registerPlanned (identity : ProtocolIdentity) (planned : Option SenderSubject) : Except GuestStoreError GuestStore :=
  match planned with
  | none => .ok w
  | some subject => (registerSubject w.subjects identity subject).map fun subjects => {w with subjects}

/-- Commits a plan: all its effects, or none. -/
def openPlanned (unit : SettlementUnit) (approach : GuestApproach) (plan : GuestRelationshipPlan) :
    Except GuestStoreError GuestStore := do
  let recipient := approach.address.recipient
  let w ← w.registerPlanned approach.identity plan.register
  let w ← w.createHistory plan.history.create
  let w ← w.mergeSources recipient plan.history plan.plannedAt
  let w := w.linkEvidence recipient plan.history
  let _ ← (FundingSource.guestInstrument approach.token guestMaximumUnresolved).mapError .payment
  let store ← w.toStoreState.bootstrapIn (approach.address.initialState plan.history.history plan.plannedAt) unit
  let e ← okOr (store.relationships.get? approach.address.relationship) .database
  refuseIf (e.protocol.relationship.history ≠ plan.history.history) .versionConflict
  .ok {w with toStoreState := store}

section
variable [Crypto]

/-- `pendingCommands` says that commands of either persona are still to be carried out. -/
def transactGuestRelationship (d : GuestDeployment) (approach : GuestApproach) (pendingCommands : Bool)
    (now : CanonicalTime) : Except GuestStoreError GuestStore := do
  let recipient := approach.address.recipient
  refuseIf (pendingCommands = true) .pendingCommands
  let mailboxHistory ← w.linkedHistory recipient (.mailbox approach.session.mailbox)
  let fingerprintHistory ← w.linkedHistory recipient (.fingerprint approach.fingerprint)
  let mailbox ← (approach.session.authorize now).mapError .guest
  refuseIf (mailbox.syntheticProtocolIdentity d.domain ≠ approach.identity ∨
    approach.address.sender ≠ approach.identity) .senderSubjectConflict
  let plan ← (planGuestRelationship approach
    ⟨now, w.subjects.get? approach.identity, mailboxHistory, fingerprintHistory⟩
    (d.deriver.guestRequestHistoryRef d.domain.toList approach.identity recipient)
    (d.deriver.mergedRequestHistoryRef d.domain.toList)).mapError .access
  w.openPlanned d.unit approach plan

end
end GuestStore

/-! ### Runs -/

inductive GuestInput
  | approach (approach : GuestApproach) (pendingCommands : Bool) (now : CanonicalTime)
  | kernel (input : StoreInput)
  /-- An identity is registered elsewhere, as on enrolment. -/
  | register (identity : ProtocolIdentity) (subject : SenderSubject)

namespace GuestStore

def step [Crypto] (d : GuestDeployment) (w : GuestStore) : GuestInput → Except GuestStoreError GuestStore
  | .approach approach pendingCommands now => w.transactGuestRelationship d approach pendingCommands now
  | .kernel input => ((w.toStoreState.step input).mapError .engine).map fun store => {w with toStoreState := store}
  | .register identity subject => w.registerPlanned identity (some subject)

/-- A run of the store: a refused input leaves it as it was. -/
def run [Crypto] (d : GuestDeployment) (inputs : List GuestInput) : GuestStore := Machine.run (step d) empty inputs

end GuestStore
end CsMail
