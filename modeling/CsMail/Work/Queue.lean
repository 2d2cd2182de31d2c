import CsMail.Library.Refusal
import CsMail.Protocol.Command

/-! One durable execution lifecycle for external effects: the work table and the statements
that change it.

A claim is a lease on a row under a fencing token; an acknowledgement names the token. Each
statement is one step of the table. The identifiers and the tokens are drawn from two
sequences, and the schedules draw from the second one as well. -/
namespace CsMail
open Library

inductive StorageError
  | workScopeMismatch
  | numericRange
  /-- The database refused the statement. -/
  | database
  deriving DecidableEq

/-- The nonnegative half of a `BIGINT`. -/
abbrev BigInt := Fin (2 ^ 63)

instance neZero63 : NeZero (2 ^ 63) := ⟨by decide⟩

theorem bigInt_le : 2 ^ 63 ≤ 2 ^ 64 := by decide

def toI64 (value : U64) : Except StorageError BigInt :=
  okOr (Checked.ofNat (2 ^ 63) value.val) .numericRange

theorem toI64_eq_ok {value : U64} {i : BigInt} : toI64 value = .ok i ↔ i.val = value.val :=
  okOr_eq_ok.trans Checked.ofNat_eq_some

/-- A number in decimal. -/
def decimal (n : ℕ) : Text := Nat.toDigits 10 n

/-! ### Queues -/

/-- Work owned by one relationship. -/
inductive RelationshipQueue
  | delivery
  | requestPayments
  | artifacts
  deriving DecidableEq

namespace RelationshipQueue

def kind : RelationshipQueue → Text
  | delivery => "delivery".toList
  | requestPayments => "request-payment".toList
  | artifacts => "artifacts".toList

def owner (aggregate : Text) : Text := "relationship:".toList ++ aggregate

end RelationshipQueue

/-- Work owned by the deployment: billing and the financial program. -/
inductive DeploymentQueue
  | utilityPayments
  | annualAllocations (unit : SettlementUnit)
  | distributionPreparation
  | memberPayments (unit : SettlementUnit)
  deriving DecidableEq

namespace DeploymentQueue

def kind : DeploymentQueue → Text
  | utilityPayments => "utility-payment".toList
  | annualAllocations _ => "annual-allocation".toList
  | distributionPreparation => "prepare-distribution".toList
  | memberPayments _ => "member-payment".toList

def owner : DeploymentQueue → Text
  | utilityPayments | distributionPreparation => "billing".toList
  | memberPayments unit | annualAllocations unit => "program:".toList ++ decimal unit.val.val

end DeploymentQueue

inductive Queue
  | relationship (queue : RelationshipQueue)
  | deployment (queue : DeploymentQueue)
  deriving DecidableEq

inductive WorkPayload
  | effect (intent : EffectIntent)
  | annualAllocation (unit : SettlementUnit) (distribution : AnnualDistributionId)
  | prepareDistribution (unit : SettlementUnit) (allocation : AllocationId)
  | utilityPayment (account : BillingAccountId) (contract : ServiceContractId)
      (operation : PaymentOperationId)
  | memberPayment (unit : SettlementUnit) (allocation : AllocationId) (operation : PaymentOperationId)
  | artifacts (position : JournalPosition)
  deriving DecidableEq

namespace WorkPayload

def queue : WorkPayload → Queue
  | annualAllocation unit _ => .deployment (.annualAllocations unit)
  | prepareDistribution .. => .deployment .distributionPreparation
  | utilityPayment .. => .deployment .utilityPayments
  | memberPayment unit .. => .deployment (.memberPayments unit)
  | effect (.executePayment ..) => .relationship .requestPayments
  | effect _ => .relationship .delivery
  | artifacts _ => .relationship .artifacts

def content : WorkPayload → Option Text
  | effect (.deliverMessage _ content _) => some (decimal content.val.val)
  | _ => none

end WorkPayload

inductive WorkSource
  | receipt (position : JournalPosition) (ordinal : U64)
  | paymentAttempt (operation : PaymentOperationId)
  | annualAllocation (distribution : AnnualDistributionId)
  | prepareDistribution (allocation : AllocationId)
  deriving DecidableEq

/-- The key one obligation of a queue is known by, and the receipt it comes from. -/
def WorkSource.key (kind : Text) : WorkSource → Except StorageError (Text × Option BigInt)
  | receipt position ordinal => do
    let stored ← toI64 position.val
    .ok (kind ++ ":".toList ++ decimal position.val.val ++ ":".toList ++ decimal ordinal.val, some stored)
  | annualAllocation id => .ok ("annual-allocation:".toList ++ decimal id.val.val, none)
  | prepareDistribution allocation =>
    .ok ("prepare-distribution:".toList ++ decimal allocation.val.val, none)
  | paymentAttempt id => .ok ("payout:".toList ++ decimal id.val.val, none)

inductive WorkFailure
  | dependencyUnavailable
  | fundingRestricted
  | invalidEvidence
  | missingContent
  | storage
  | signingAuthority
  deriving DecidableEq

def WorkFailure.code : WorkFailure → Text
  | fundingRestricted => "funding-restricted".toList
  | dependencyUnavailable => "dependency-unavailable".toList
  | invalidEvidence => "invalid-evidence".toList
  | missingContent => "missing-content".toList
  | storage => "storage".toList
  | signingAuthority => "signing-authority".toList

/-! ### Rows -/

inductive WorkStatus
  | ready
  | running
  | complete
  | blocked
  deriving DecidableEq

/-- A row of `cs_work`. -/
structure WorkRow where
  owner : Text
  aggregate : Option Text
  workKey : Text
  kind : Text
  payload : WorkPayload
  content : Option Text
  status : WorkStatus
  availableAt : BigInt
  claimUntil : Option BigInt
  claimToken : Option ℕ
  /-- An `INTEGER` that only grows. -/
  attempts : Fin (2 ^ 31)
  failure : Option Text
  completedAt : Option BigInt
  createdAt : BigInt
  position : Option BigInt
  deriving DecidableEq

/-- Claimed work, as a worker holds it. -/
structure WorkItem where
  id : ℕ
  payload : WorkPayload
  attempts : U32
  owner : Text
  token : ℕ
  aggregate : Option Text
  position : Option BigInt
  deriving DecidableEq

namespace WorkRow

/-- A claim at this time may take the row: it waits and its time has come, or its lease has ended. -/
def due (r : WorkRow) (now : BigInt) : Bool :=
  (r.status = .ready ∧ r.availableAt ≤ now) ∨
    (r.status = .running ∧ r.claimUntil.any (fun ends => ends ≤ now) = true)

/-- `ORDER BY available_at, id`. -/
def before (a b : ℕ × WorkRow) : Bool :=
  a.2.availableAt < b.2.availableAt ∨ (a.2.availableAt = b.2.availableAt ∧ a.1 ≤ b.1)

/-- The claim with this token still runs. -/
def runs (r : WorkRow) (item : WorkItem) (now : BigInt) : Bool :=
  r.owner = item.owner ∧ r.claimToken = some item.token ∧ r.status = .running ∧
    r.claimUntil.any (fun ends => now < ends) = true

/-- The row as its newest claim returns it. -/
def item (r : WorkRow) (id token : ℕ) : WorkItem where
  id := id
  payload := r.payload
  attempts := r.attempts.castLE (by decide)
  owner := r.owner
  token := token
  aggregate := r.aggregate
  position := r.position

end WorkRow

structure WorkTable where
  rows : SortedMap ℕ WorkRow
  nextId : ℕ
  nextToken : ℕ
  deriving DecidableEq

namespace WorkTable

def empty : WorkTable := ⟨∅, 1, 1⟩

/-- `INSERT … ON CONFLICT(owner, work_key) DO NOTHING`; the identifier is drawn either way. -/
def insert (t : WorkTable) (owner : Text) (aggregate : Option Text) (kind : Text) (availableAt : U64)
    (source : WorkSource) (payload : WorkPayload) (now : CanonicalTime) :
    Except StorageError WorkTable := do
  let (workKey, position) ← source.key kind
  let createdAt ← toI64 now.val
  let availableAt ← toI64 availableAt
  if t.rows.values.any (fun r => r.owner = owner ∧ r.workKey = workKey) then
    .ok {t with nextId := t.nextId + 1}
  else .ok {t with
    rows := t.rows.insert t.nextId {
      owner, aggregate, workKey, kind, payload, createdAt, availableAt, position
      content := payload.content
      status := .ready
      claimUntil := none
      claimToken := none
      attempts := 0
      failure := none
      completedAt := none}
    nextId := t.nextId + 1}

/-- Relationship-owned work produced by a relationship transaction. -/
def enqueue (t : WorkTable) (key : Text) (source : WorkSource) (payload : WorkPayload)
    (now : CanonicalTime) : Except StorageError WorkTable :=
  match payload.queue with
  | .relationship queue =>
    t.insert (RelationshipQueue.owner key) (some key) queue.kind 0 source payload now
  | .deployment _ => .error .workScopeMismatch

/-- Deployment-owned work: billing and the financial program. -/
def enqueueDeployment (t : WorkTable) (source : WorkSource) (payload : WorkPayload)
    (now : CanonicalTime) : Except StorageError WorkTable :=
  match payload.queue with
  | .deployment queue => t.insert queue.owner none queue.kind now.val source payload now
  | .relationship _ => .error .workScopeMismatch

/-! ### Claims -/

/-- The rows of a queue a claim takes. -/
def candidates (t : WorkTable) (owner kind : Text) (now : BigInt) (limit : ℕ) : List (ℕ × WorkRow) :=
  ((t.rows.entries.filter fun e => e.2.owner = owner ∧ e.2.kind = kind ∧ e.2.due now = true).mergeSort
    WorkRow.before).take limit

/-- A row is leased under the next token. -/
def claimRow (t : WorkTable) (claimUntil : BigInt) (e : ℕ × WorkRow) :
    Except StorageError (WorkTable × WorkItem) := do
  let attempts ← okOr (Checked.succ e.2.attempts) .database
  let row := {e.2 with
    status := .running
    claimUntil := some claimUntil
    claimToken := some t.nextToken
    attempts}
  .ok ({t with rows := t.rows.insert e.1 row, nextToken := t.nextToken + 1}, row.item e.1 t.nextToken)

def claimRows (claimUntil : BigInt) : List (ℕ × WorkRow) → WorkTable →
    Except StorageError (WorkTable × List WorkItem)
  | [], t => .ok (t, [])
  | e :: rest, t => do
    let (t, item) ← t.claimRow claimUntil e
    let (t, items) ← claimRows claimUntil rest t
    .ok (t, item :: items)

/-- A claim, and the end of the lease it gives. -/
def claim (t : WorkTable) (owner kind : Text) (now : CanonicalTime) (lease : Duration) (limit : ℤ) :
    Except StorageError (WorkTable × List WorkItem × BigInt) := do
  refuseIf (lease.val = 0 ∨ limit < 0) .numericRange
  let ends ← okOr (now.checkedAdd lease) .numericRange
  let claimUntil ← toI64 ends.val
  let now ← toI64 now.val
  let (t, items) ← claimRows claimUntil (t.candidates owner kind now limit.toNat) t
  .ok (t, items.mergeSort (fun a b => a.id ≤ b.id), claimUntil)

/-! ### Acknowledgements -/

/-- `finish`: the row is settled if this claim still runs. -/
def finish (t : WorkTable) (expectedOwner : Option Text) (item : WorkItem) (now : CanonicalTime)
    (status : WorkStatus) (available : CanonicalTime) (failure : Option WorkFailure) :
    Except StorageError (WorkTable × Bool) :=
  if expectedOwner ≠ some item.owner then .ok (t, false)
  else do
    let availableAt ← toI64 available.val
    let now ← toI64 now.val
    match t.rows.get? item.id with
    | none => .ok (t, false)
    | some row =>
      if row.runs item now then
        let row := {row with
          status
          availableAt
          failure := failure.map WorkFailure.code
          completedAt := if status = .complete then some now else none
          claimUntil := none}
        .ok ({t with rows := t.rows.insert item.id row}, true)
      else .ok (t, false)

/-- Doubles with each attempt, up to the eighth. -/
def retryDelay (item : WorkItem) (now : CanonicalTime) : Except StorageError CanonicalTime :=
  okOr (do
    let delay ← Checked.ofNat (2 ^ 64) (1000 * 2 ^ min item.attempts.val 8)
    now.checkedAdd ⟨delay⟩) .numericRange

/-- Resumes blocked work. -/
def resume (t : WorkTable) (owner kind : Text) (id : ℕ) (now : CanonicalTime) :
    Except StorageError (WorkTable × Bool) := do
  let availableAt ← toI64 now.val
  match t.rows.get? id with
  | none => .ok (t, false)
  | some row =>
    if row.owner = owner ∧ row.kind = kind ∧ row.status = .blocked then
      let row := {row with status := .ready, availableAt, failure := none}
      .ok ({t with rows := t.rows.insert id row}, true)
    else .ok (t, false)

end WorkTable

/-! ### Handles -/

/-- The handle of one relationship, or of the deployment. -/
inductive WorkHandle
  | engine (aggregateKey : Text)
  | deployment
  deriving DecidableEq

/-- The owner a handle acknowledges an item for. -/
def WorkHandle.owned : WorkHandle → WorkItem → Option Text
  | engine aggregateKey, item =>
    match item.payload.queue with
    | .relationship _ => some (RelationshipQueue.owner aggregateKey)
    | .deployment _ => none
  | deployment, item =>
    match item.payload.queue with
    | .deployment queue => some queue.owner
    | .relationship _ => none

/-- A queue as a handle addresses it. -/
inductive ClaimQueue
  | relationship (aggregateKey : Text) (queue : RelationshipQueue)
  | deployment (queue : DeploymentQueue)
  deriving DecidableEq

namespace ClaimQueue

def owner : ClaimQueue → Text
  | relationship aggregateKey _ => RelationshipQueue.owner aggregateKey
  | deployment queue => queue.owner

def kind : ClaimQueue → Text
  | relationship _ queue => queue.kind
  | deployment queue => queue.kind

end ClaimQueue

inductive WorkCall
  | enqueue (key : Text) (source : WorkSource) (payload : WorkPayload) (now : CanonicalTime)
  | enqueueDeployment (source : WorkSource) (payload : WorkPayload) (now : CanonicalTime)
  | claimWork (queue : ClaimQueue) (now : CanonicalTime) (lease : Duration) (limit : ℤ)
  | completeWork (handle : WorkHandle) (item : WorkItem) (now : CanonicalTime)
  | retryWork (handle : WorkHandle) (item : WorkItem) (now : CanonicalTime) (failure : WorkFailure)
  | blockWork (handle : WorkHandle) (item : WorkItem) (now : CanonicalTime) (failure : WorkFailure)
  | resumeWork (queue : ClaimQueue) (id : ℕ) (now : CanonicalTime)
  /-- Schedules draw their tokens from the same sequence. -/
  | drawToken

inductive WorkOutcome
  | done
  | claimed (items : List WorkItem) (claimUntil : BigInt)
  | acknowledged (item : WorkItem) (now : CanonicalTime) (effective : Bool)
  | resumed (effective : Bool)
  deriving DecidableEq

namespace WorkTable

/-- An acknowledgement of an item, settling it with a status. -/
def acknowledge (t : WorkTable) (handle : WorkHandle) (item : WorkItem) (now : CanonicalTime)
    (status : WorkStatus) (available : CanonicalTime) (failure : Option WorkFailure) :
    Except StorageError (WorkTable × WorkOutcome) :=
  (t.finish (handle.owned item) item now status available failure).map fun r =>
    (r.1, .acknowledged item now r.2)

def call (t : WorkTable) : WorkCall → Except StorageError (WorkTable × WorkOutcome)
  | .enqueue key source payload now => (t.enqueue key source payload now).map (·, .done)
  | .enqueueDeployment source payload now => (t.enqueueDeployment source payload now).map (·, .done)
  | .claimWork queue now lease limit =>
    (t.claim queue.owner queue.kind now lease limit).map fun r => (r.1, .claimed r.2.1 r.2.2)
  | .completeWork handle item now => t.acknowledge handle item now .complete now none
  | .retryWork handle item now failure => do
    let available ← retryDelay item now
    t.acknowledge handle item now .ready available (some failure)
  | .blockWork handle item now failure => t.acknowledge handle item now .blocked now (some failure)
  | .resumeWork queue id now =>
    (t.resume queue.owner queue.kind id now).map fun r => (r.1, .resumed r.2)
  | .drawToken => .ok ({t with nextToken := t.nextToken + 1}, .done)

end WorkTable
end CsMail
