import CsMail.Library.Journal
import CsMail.Library.Refusal
import CsMail.Primitives

/-! The conserved ledger: transfers between accounts, applied a batch at a time.

Clearing accounts stand for the other side of an external movement and may be
negative; every other account is nonnegative. A batch is applied to a copy of the
balances, and a refused batch changes nothing. -/
namespace CsMail
open Library

inductive Account
  | processorClearing
  | programClearing (operation : PaymentOperationId)
  | requestEscrow (operation : PaymentOperationId)
  | refundPayable (operation : PaymentOperationId)
  | processingRevenue
  | utilityServiceReceipts (operation : PaymentOperationId)
  | pendingForfeiture (operation : PaymentOperationId)
  | corporatePoolRevenue
  | restrictedMemberFunds
  | memberPayable (allocation : AllocationId)
  | corporateLossClearing
  deriving DecidableEq

namespace Account

def permitsNegative : Account → Bool
  | processorClearing | programClearing _ | corporateLossClearing => true
  | _ => false

def tag : Account → Nat
  | processorClearing => 0
  | programClearing _ => 1
  | requestEscrow _ => 2
  | refundPayable _ => 3
  | processingRevenue => 4
  | utilityServiceReceipts _ => 5
  | pendingForfeiture _ => 6
  | corporatePoolRevenue => 7
  | restrictedMemberFunds => 8
  | memberPayable _ => 9
  | corporateLossClearing => 10

def payload : Account → U128
  | programClearing o | requestEscrow o | refundPayable o | utilityServiceReceipts o
  | pendingForfeiture o => o.val
  | memberPayable a => a.val
  | _ => 0

/-- The derived order: the variant first, then its identifier. -/
def rank (a : Account) : Nat := a.tag * 2 ^ 128 + a.payload.val

def ofTag (payload : U128) : Nat → Account
  | 0 => processorClearing
  | 1 => programClearing ⟨payload⟩
  | 2 => requestEscrow ⟨payload⟩
  | 3 => refundPayable ⟨payload⟩
  | 4 => processingRevenue
  | 5 => utilityServiceReceipts ⟨payload⟩
  | 6 => pendingForfeiture ⟨payload⟩
  | 7 => corporatePoolRevenue
  | 8 => restrictedMemberFunds
  | 9 => memberPayable ⟨payload⟩
  | _ => corporateLossClearing

theorem ofTag_tag (a : Account) : ofTag a.payload a.tag = a := by
  cases a <;> rfl

theorem rank_injective : Function.Injective rank := by
  intro a b h
  have ha := a.payload.isLt
  have hb := b.payload.isLt
  have htag : a.tag = b.tag := by
    simp only [rank] at h
    omega
  have hpayload : a.payload = b.payload := by
    apply Fin.ext
    simp only [rank, htag] at h
    omega
  rw [← ofTag_tag a, ← ofTag_tag b, htag, hpayload]

instance : LinearOrder Account := LinearOrder.lift' rank rank_injective

end Account

structure Transfer where
  fromAccount : Account
  toAccount : Account
  amount : Money
  deriving DecidableEq

structure LedgerBatch where
  transfers : List Transfer := []
  deriving DecidableEq

namespace LedgerBatch

instance : EmptyCollection LedgerBatch := ⟨{}⟩

def transfer (b : LedgerBatch) (fromAccount toAccount : Account) (amount : Money) : LedgerBatch :=
  if amount.isZero then b else ⟨b.transfers ++ [⟨fromAccount, toAccount, amount⟩]⟩

def isBalanced (b : LedgerBatch) : Bool := b.transfers.all fun t => t.fromAccount ≠ t.toAccount

end LedgerBatch

inductive LedgerError
  | insufficientFunds (account : Account) (available required : Money)
  | arithmeticOverflow
  | invalidBatch
  | versionConflict
  deriving DecidableEq

/-- A value of type `i128`, if it fits. -/
def i128 (x : Int) : Option Int := if -2 ^ 127 ≤ x ∧ x < 2 ^ 127 then some x else none

/-- `u64::try_from`. -/
def u64OfInt (x : Int) : Option Money :=
  if h : 0 ≤ x ∧ x.toNat < 2 ^ 64 then some ⟨⟨x.toNat, h.2⟩⟩ else none

structure LedgerView where
  revision : U64
  unit : SettlementUnit
  balances : List (Account × Int)
  deriving DecidableEq

namespace LedgerView

def fromBalances (revision : U64) (unit : SettlementUnit) (balances : SortedMap Account Int) :
    LedgerView :=
  ⟨revision, unit, balances.entries⟩

def signedBalance (v : LedgerView) (account : Account) : Int :=
  ((v.balances.find? fun e => e.1 = account).map Prod.snd).getD 0

/-- The nonnegative obligation balance. -/
def balance (v : LedgerView) (account : Account) : Money :=
  (u64OfInt (max (v.signedBalance account) 0)).getD ⟨⟨u64Max, by decide⟩⟩

/-- Every account once, no obligation negative, every balance within the signed range. -/
def checkBalances (accounts : List Account) : List (Account × Int) → Except LedgerError Unit
  | [] => .ok ⟨⟩
  | (account, value) :: rest => do
    refuseIf (account ∈ accounts ∨ (account.permitsNegative = false ∧ value < 0)) .invalidBatch
    refuseIf ((u64Max : Int) < value ∨ value < -(u64Max : Int)) .arithmeticOverflow
    checkBalances (account :: accounts) rest

def addBalance (sum : Int) (e : Account × Int) : Except LedgerError Int :=
  okOr (i128 (sum + e.2)) .arithmeticOverflow

/-- Checks that all signed balances sum to zero. -/
def totalValue (v : LedgerView) : Except LedgerError Money := do
  checkBalances [] v.balances
  let sum ← v.balances.foldlM addBalance 0
  refuseIf (sum ≠ 0) .invalidBatch
  .ok .zero

def applyTransfer (balances : SortedMap Account Int) (t : Transfer) :
    Except LedgerError (SortedMap Account Int) := do
  let available := (balances.get? t.fromAccount).getD 0
  let remaining ← okOr (i128 (available - t.amount.units)) .arithmeticOverflow
  if remaining < 0 ∧ t.fromAccount.permitsNegative = false then
    let held ← okOr (u64OfInt available) .invalidBatch
    .error (.insufficientFunds t.fromAccount held t.amount)
  else
    let destination ← okOr (i128 ((balances.get? t.toAccount).getD 0 + t.amount.units))
      .arithmeticOverflow
    refuseIf ((t.toAccount.permitsNegative = false ∧ (u64Max : Int) < destination) ∨
      remaining < -(u64Max : Int)) .arithmeticOverflow
    .ok ((balances.insert t.fromAccount remaining).insert t.toAccount destination)

/-- Applies a complete balanced batch to a copy, with no partial mutation. -/
def apply (v : LedgerView) (batch : LedgerBatch) : Except LedgerError LedgerView := do
  let _ ← v.totalValue
  refuseIf (batch.isBalanced = false) .invalidBatch
  let balances ← batch.transfers.foldlM applyTransfer (SortedMap.ofList v.balances)
  let revision ← okOr (Checked.succ v.revision) .arithmeticOverflow
  let next := fromBalances revision v.unit balances
  let _ ← next.totalValue
  .ok next

end LedgerView

structure LedgerState where
  view : LedgerView
  deriving DecidableEq

namespace LedgerState

def new (unit : SettlementUnit) : LedgerState := ⟨.fromBalances 0 unit ∅⟩

def apply (s : LedgerState) (expectedRevision : U64) (batch : LedgerBatch) :
    Except LedgerError LedgerState := do
  refuseIf (s.view.revision ≠ expectedRevision) .versionConflict
  let view ← s.view.apply batch
  .ok ⟨view⟩

end LedgerState
end CsMail
