import CsMail.Accounts.Directory
import CsMail.Ingress.Model
import CsMail.Library.Machine
import Mathlib.Data.Char
import Mathlib.Data.List.Lex
import Mathlib.Data.List.Sort
import Mathlib.Data.Prod.Lex

/-! Policy-pinned lifecycle rules: what is registered for deletion, when it is deleted, and what is left.

The tables are those of one relationship. A registered record keeps the deadline it was given; a
later policy never rewrites it, an operator may extend it. The calls set the policy and the operator's
holds and extensions, delete a batch, and repeat the deletions after a restored backup. -/
namespace CsMail.Lifecycle
open Library

structure LifecyclePolicy where
  version : RetentionPolicyVersion
  /-- Retention after request closure, message validity, or quote expiry. -/
  formationLifetime : Duration
  /-- Retention of submissions and detailed outcomes after receipt. -/
  replayLifetime : Duration
  deriving DecidableEq

inductive RecordDomain
  | requestDocument
  | content
  | request
  | message
  | quote
  | command
  deriving DecidableEq

def RecordDomain.name : RecordDomain → Text
  | requestDocument => "request-document".toList
  | content => "content".toList
  | request => "request".toList
  | message => "message".toList
  | quote => "quote".toList
  | command => "command".toList

/-! ### The tables records are of -/

/-- What a received command came to, as retention reads it. -/
inductive CommandState
  | pending
  /-- With the quote whose terms the outcome promises, if it does. -/
  | settled (quote : Option Text)
  | retired (outcomeDigest : Bytes32)
  deriving DecidableEq

structure CommandRow where
  receivedAt : BigInt
  state : CommandState
  deriving DecidableEq

structure QuoteRow where
  expiresAt : CanonicalTime
  signed : Bool
  deriving DecidableEq

structure WorkRow where
  content : Option Text
  position : Option BigInt
  complete : Bool
  deriving DecidableEq

structure Objects where
  documents : SortedMap Text BigInt
  contents : SortedMap Text EncryptedContentRecord
  /-- When each request was closed, if it was. -/
  requests : SortedMap Text (Option BigInt)
  messages : SortedMap Text Message
  quotes : SortedMap Text QuoteRow
  quoteTombstones : SortedMap Text Unit
  commands : SortedMap BigInt CommandRow
  /-- The outcome digests of the provider's receipts. -/
  providerReceipts : SortedMap BigInt Bytes32
  work : List WorkRow
  /-- The positions protocol events are of. -/
  events : List BigInt

/-! ### Records -/

structure RetentionRecord where
  reference : Bytes
  domain : RecordDomain
  object : Text
  policyVersion : RetentionPolicyVersion
  /-- The deadline; it is only ever extended. -/
  deleteAfter : BigInt
  holdUntil : Option BigInt
  nextCheckAt : BigInt
  deleted : Bool
  createdAt : BigInt
  deriving DecidableEq

structure RetentionChange where
  reference : Bytes
  at' : BigInt
  reason : Text
  holdUntil : Option BigInt
  deleteAfter : BigInt
  deriving DecidableEq

structure DeletionManifest where
  reference : Bytes
  domain : RecordDomain
  object : Text
  policyVersion : RetentionPolicyVersion
  deletedAt : BigInt
  deriving DecidableEq

structure RetentionReport where
  examined : ℕ
  deleted : ℕ
  deferred : ℕ
  deriving DecidableEq

structure Tables where
  key : Text
  relationship : Bytes32
  policies : SortedMap U16 LifecyclePolicy
  records : List RetentionRecord
  changes : List RetentionChange
  manifests : List DeletionManifest
  objects : Objects
  /-- A command of another relationship that shares an owner is pending. -/
  othersPending : Bool

def toI64 (value : U64) : Except Ingress.StorageError BigInt := okOr (Checked.ofNat (2 ^ 63) value.val) .numericRange

def canonicalTime (t : BigInt) : CanonicalTime := ⟨t.castLE bigInt_le⟩

/-- Whether a number is negative, and its digits. -/
def signed : Text → Bool × Text
  | '-' :: rest => (true, rest)
  | '+' :: rest => (false, rest)
  | digits => (false, digits)

/-- `i64::from_str`. -/
def parseI64 (t : Text) : Option ℤ :=
  let (negative, digits) := signed t
  if digits = [] ∨ digits.all Char.isDigit = false then none
  else
    let magnitude : ℤ := (Nat.ofDigitChars 10 digits 0 : ℕ)
    let value := if negative then -magnitude else magnitude
    if -2 ^ 63 ≤ value ∧ value < 2 ^ 63 then some value else none

/-- The parts of a reference, each with its length. -/
def recordBytes (key domain object : Text) : Bytes :=
  byteString "cs-mail/retained-record/v1" ++
    [key, domain, object].flatMap fun part => beBytes 8 part.utf8.length ++ part.utf8

def recordRef [Crypto] (key domain object : Text) : Bytes := (Crypto.sha256 (recordBytes key domain object)).toList

/-- The reference of content, under the relationship. -/
def retentionRecordKey (relationship : Bytes32) (domain object : Text) : Bytes :=
  byteString "cs-mail/retention-record/v1" ++ [0] ++ relationship.toList ++ domain.utf8 ++ [0] ++ object.utf8

namespace Tables

/-- A constraint of the table is in the way of a record. -/
def conflicts (t : Tables) (reference : Bytes) (domain : RecordDomain) (object : Text) : Bool :=
  t.records.any fun r => r.reference = reference ∨ (r.domain = domain ∧ r.object = object)

def insertRecord (t : Tables) (r : RetentionRecord) : Tables := {t with records := t.records ++ [r]}

def updateRecord (t : Tables) (reference : Bytes) (f : RetentionRecord → RetentionRecord) : Tables :=
  {t with records := t.records.map fun r => if r.reference = reference then f r else r}

/-! ### Registration -/

/-- What has come to its end: requests, messages, quotes and commands, each with its origin. -/
def ended (o : Objects) : List (RecordDomain × Text × CanonicalTime) :=
  o.requests.entries.filterMap (fun e => e.2.map fun closedAt => (.request, e.1, canonicalTime closedAt)) ++
    o.messages.entries.map (fun e => (.message, e.1, e.2.validUntil.time)) ++
    o.quotes.entries.map (fun e => (.quote, e.1, e.2.expiresAt)) ++
    o.commands.entries.filterMap fun e =>
      match e.2.state with
      | .settled _ => some (.command, decimal e.1.val, canonicalTime e.2.receivedAt)
      | .pending | .retired _ => none

def lifetime (policy : LifecyclePolicy) : RecordDomain → Duration
  | .command => policy.replayLifetime
  | _ => policy.formationLifetime

/-- `INSERT … ON CONFLICT DO NOTHING`. -/
def register [Crypto] (policy : LifecyclePolicy) (t : Tables) (e : RecordDomain × Text × BigInt) :
    Except Ingress.StorageError Tables := do
  let (domain, object, origin) := e
  let deadline ← okOr ((canonicalTime origin).checkedAdd (lifetime policy domain)) .numericRange
  let deleteAfter ← toI64 deadline.val
  let reference := recordRef t.key domain.name object
  if t.conflicts reference domain object then .ok t
  else .ok (t.insertRecord {
    reference
    domain
    object
    policyVersion := policy.version
    deleteAfter
    holdUntil := none
    nextCheckAt := 0
    deleted := false
    createdAt := origin})

/-- Registers newly eligible records exactly once, by the newest policy. The times that are read out of
documents are cast in the query. -/
def registerRecords [Crypto] (t : Tables) : Except Ingress.StorageError Tables :=
  match t.policies.values.getLast? with
  | none => .ok t
  | some policy => do
    let rows ← (ended t.objects).mapM fun e => do
      let origin ← (toI64 e.2.2.val).mapError fun _ => .database
      .ok (e.1, e.2.1, origin)
    rows.foldlM (register policy) t

/-- `persist_message`. -/
def persistMessage (t : Tables) (message : Message) : Except Ingress.StorageError Tables := do
  let object := decimal message.id.val.val
  refuseIf (t.records.any (fun r => r.domain = .message ∧ r.object = object ∧ r.deleted = true) = true)
    .duplicateConflict
  refuseIf ((t.objects.messages.get? object).any (· ≠ message) = true) .duplicateConflict
  .ok {t with objects.messages := t.objects.messages.insert object message}

/-- `persist_content`, with the record of it. -/
def persistContent (t : Tables) (record : EncryptedContentRecord) (version : RetentionPolicyVersion) :
    Except Ingress.StorageError Tables :=
  let object := decimal record.binding.contentRef.val.val
  match t.objects.contents.get? object with
  | some stored => if stored = record then .ok t else .error .duplicateConflict
  | none => do
    let reference := retentionRecordKey t.relationship RecordDomain.content.name object
    let createdAt ← toI64 record.createdAt.val
    let deleteAfter ← toI64 record.expiresAt.val
    refuseIf (t.conflicts reference .content object = true) .database
    .ok {t.insertRecord {
      reference
      domain := .content
      object
      policyVersion := version
      deleteAfter
      holdUntil := none
      nextCheckAt := 0
      deleted := false
      createdAt} with objects.contents := t.objects.contents.insert object record}

/-- What staging a request document writes of it, with the record of it. -/
def stageDocument (t : Tables) (content : ContentRef) (version : RetentionPolicyVersion)
    (expiresAt now : CanonicalTime) : Except Ingress.StorageError Tables := do
  let object := decimal content.val.val
  let reference := retentionRecordKey t.relationship RecordDomain.requestDocument.name object
  let deleteAfter ← toI64 expiresAt.val
  refuseIf (t.objects.documents.contains object = true) .database
  let createdAt ← toI64 now.val
  refuseIf (t.conflicts reference .requestDocument object = true) .database
  .ok {t.insertRecord {
    reference
    domain := .requestDocument
    object
    policyVersion := version
    deleteAfter
    holdUntil := none
    nextCheckAt := 0
    deleted := false
    createdAt} with objects.documents := t.objects.documents.insert object deleteAfter}

end Tables

/-! ### Deletion -/

namespace Objects

def contentInUse (o : Objects) (object : Text) : Bool :=
  o.work.any fun w => w.content = some object ∧ w.complete = false

def retireRow (digest : Bytes32) (r : CommandRow) : CommandRow := {r with state := .retired digest}

/-- `delete_record`: whether the object could be deleted. The statement about messages has a literal that
is not closed, and the database refuses it. -/
def delete (o : Objects) (object : Text) : RecordDomain → Except Ingress.StorageError (Objects × Bool)
  | .requestDocument => .ok ({o with documents := o.documents.erase object}, true)
  | .content =>
    if o.contentInUse object then .ok (o, false)
    else .ok ({o with contents := o.contents.erase object}, true)
  | .request =>
    if o.requests.get? object = some none then .ok (o, false)
    else .ok ({o with requests := o.requests.erase object}, true)
  | .message => .error .database
  | .quote =>
    if o.commands.values.any (fun c => c.state = .settled (some object)) then .ok (o, false)
    else if (o.quotes.get? object).any (fun q => !q.signed) then .ok (o, false)
    else .ok ({o with
      quoteTombstones := o.quoteTombstones.insert object ()
      quotes := o.quotes.erase object}, true)
  | .command => do
    let position ← okOr (parseI64 object) .numericRange
    if o.work.any fun w => w.position.any (fun p => (p.val : ℤ) = position) ∧ w.complete = false then
      .ok (o, false)
    else
      match o.providerReceipts.entries.find? fun e => (e.1.val : ℤ) = position with
      | none => .ok (o, false)
      | some (p, digest) => .ok ({o with
        commands := match o.commands.get? p with
          | some row => o.commands.insert p (retireRow digest row)
          | none => o.commands
        work := o.work.filter fun w => !(w.position = some p ∧ w.complete = true)
        events := o.events.filter fun q => q ≠ p}, true)

end Objects

/-! ### Calls -/

/-- `ORDER BY delete_after, record_ref`. -/
def RetentionRecord.order (r : RetentionRecord) : BigInt ×ₗ List ℕ :=
  toLex (r.deleteAfter, r.reference.map UInt8.toNat)

def RetentionRecord.due (now : BigInt) (r : RetentionRecord) : Bool :=
  !r.deleted && r.deleteAfter ≤ now && r.nextCheckAt ≤ now && r.holdUntil.all (· ≤ now)

def transposed : Option CanonicalTime → Except Ingress.StorageError (Option BigInt)
  | none => .ok none
  | some time => (toI64 time.val).map some

namespace Tables

/-- The receipt-order gate. -/
def requireRelationshipDrained (t : Tables) : Except Ingress.StorageError Unit :=
  refuseIf (t.othersPending = true ∨ t.objects.commands.values.any (·.state = .pending) = true)
    .pendingCommands

/-- Explicit lifetimes, versioned and immutable once installed. -/
def configureLifecycle [Crypto] (t : Tables) (policy : LifecyclePolicy) : Except Ingress.StorageError Tables := do
  t.requireRelationshipDrained
  refuseIf ((t.policies.get? policy.version.val).any (· ≠ policy) = true) .duplicateConflict
  registerRecords {t with policies := t.policies.insert policy.version.val policy}

/-- Records a hold or its release, and an extension of the deadline. -/
def updateRetention (t : Tables) (domain object : Text) (holdUntil deleteAfter : Option CanonicalTime)
    (now : CanonicalTime) (reason : Text) : Except Ingress.StorageError Tables := do
  refuseIf (reason.trim = [] ∨ 2000 < reason.utf8.length ∨ holdUntil.any (· ≤ now) = true) .numericRange
  t.requireRelationshipDrained
  let r ← okOr (t.records.find? fun r => r.domain.name = domain ∧ r.object = object ∧ r.deleted = false)
    (.protocol .missingRecord)
  let extended ← transposed deleteAfter
  let deadline := extended.getD r.deleteAfter
  refuseIf (deadline < r.deleteAfter) .versionConflict
  let hold ← transposed holdUntil
  let changedAt ← toI64 now.val
  .ok {t.updateRecord r.reference (fun r => {r with
      holdUntil := hold
      deleteAfter := deadline
      nextCheckAt := 0}) with
    changes := t.changes ++ [⟨r.reference, changedAt, reason, hold, deadline⟩]}

/-! ### Batches -/

def batch (t : Tables) (now : BigInt) (limit : ℕ) : List RetentionRecord :=
  ((t.records.filter (·.due now)).insertionSort fun a b => a.order ≤ b.order).take limit

/-- One record of a batch: deleted with a manifest of it, or deferred. -/
def expire (now : BigInt) (state : Tables × RetentionReport) (r : RetentionRecord) :
    Except Ingress.StorageError (Tables × RetentionReport) := do
  let (t, report) := state
  let (objects, deleted) ← t.objects.delete r.object r.domain
  if deleted = false then do
    let later ← okOr ((canonicalTime now).checkedAdd ⟨1000⟩) .numericRange
    let nextCheckAt ← toI64 later.val
    .ok ({t with objects}.updateRecord r.reference (fun r => {r with nextCheckAt}),
      {report with deferred := report.deferred + 1})
  else
    .ok ({({t with objects}.updateRecord r.reference fun r => {r with deleted := true}) with
        manifests := t.manifests ++ [⟨r.reference, r.domain, r.object, r.policyVersion, now⟩]},
      {report with deleted := report.deleted + 1})

/-- Deletes a bounded batch; the entire batch is atomic. -/
def runRetention (t : Tables) (now : CanonicalTime) (limit : ℤ) :
    Except Ingress.StorageError (Tables × RetentionReport) := do
  refuseIf (limit < 0) .numericRange
  t.requireRelationshipDrained
  let now ← toI64 now.val
  let rows := t.batch now limit.toNat
  rows.foldlM (expire now) (t, ⟨rows.length, 0, 0⟩)

def reapply (t : Tables) (m : DeletionManifest) : Except Ingress.StorageError Tables := do
  let (objects, deleted) ← t.objects.delete m.object m.domain
  refuseIf (deleted = false) .pendingCommands
  .ok ({t with objects}.updateRecord m.reference fun r => {r with deleted := true})

/-- Reapplies the manifests after a backup was restored; work that still needs a record refuses it. -/
def reconcileRestoredDeletions (t : Tables) : Except Ingress.StorageError (Tables × ℕ) := do
  t.requireRelationshipDrained
  let t' ← t.manifests.foldlM reapply t
  .ok (t', t.manifests.length)

end Tables

/-! ### The machine -/

inductive Call
  | configureLifecycle (policy : LifecyclePolicy)
  | updateRetention (domain object : Text) (holdUntil deleteAfter : Option CanonicalTime)
      (now : CanonicalTime) (reason : Text)
  | runRetention (now : CanonicalTime) (limit : ℤ)
  | reconcileRestoredDeletions
  /-- What the application of a received command ends with. -/
  | registerRecords
  | persistContent (record : EncryptedContentRecord) (version : RetentionPolicyVersion)
  | stageDocument (content : ContentRef) (version : RetentionPolicyVersion) (expiresAt now : CanonicalTime)
  | persistMessage (message : Message)
  /-- The delivery of a staged document takes it. -/
  | deliver (object : Text)
  /-- A change of what records are of, other than content, documents and messages. -/
  | elsewhere (objects : Objects) (othersPending : Bool)

/-- One transaction. It commits, or leaves everything as it was. -/
def call [Crypto] (t : Tables) : Call → Except Ingress.StorageError Tables
  | .configureLifecycle policy => t.configureLifecycle policy
  | .updateRetention domain object holdUntil deleteAfter now reason =>
    t.updateRetention domain object holdUntil deleteAfter now reason
  | .runRetention now limit => (t.runRetention now limit).map Prod.fst
  | .reconcileRestoredDeletions => t.reconcileRestoredDeletions.map Prod.fst
  | .registerRecords => t.registerRecords
  | .persistContent record version => t.persistContent record version
  | .stageDocument content version expiresAt now => t.stageDocument content version expiresAt now
  | .persistMessage message => t.persistMessage message
  | .deliver object => do
    refuseIf (t.objects.documents.contains object = false) .versionConflict
    .ok {t with objects.documents := t.objects.documents.erase object}
  | .elsewhere objects othersPending => .ok {t with
      objects := {objects with
        contents := t.objects.contents
        documents := t.objects.documents
        messages := t.objects.messages}
      othersPending}

def Objects.start : Objects := ⟨∅, ∅, ∅, ∅, ∅, ∅, ∅, ∅, [], []⟩

/-- A relationship with nothing in it. -/
def Tables.start (key : Text) (relationship : Bytes32) : Tables :=
  ⟨key, relationship, ∅, [], [], [], .start, false⟩

end CsMail.Lifecycle
