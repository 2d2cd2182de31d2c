import CsMail.Finance.RequestProofs
import CsMail.Library.Machine

/-! Whole runs of one request's money, posted to a ledger of its own.

Settlements and payment evidence may come in any order and any number of times. A
refused call changes nothing; an accepted one posts what it emitted. -/
namespace CsMail
open Library Journal

inductive FinancialCall
  | settle (settlement : RequestSettlement) (now : CanonicalTime)
  | recordPayment (receipt : SignedPaymentEvidence)
  deriving DecidableEq

/-- A request's money, the ledger it posts to, and everything its calls have created. -/
structure RequestBooks where
  financials : RequestFinancials
  ledger : LedgerState
  operations : List PaymentOperationId
  forfeitures : List Forfeiture

namespace RequestBooks

def start (f : RequestFinancials) : RequestBooks := ⟨f, .new f.capture.unit, [], []⟩

/-- Posts at the ledger's own revision; nothing to post leaves the ledger alone. -/
def post (ledger : LedgerState) (postings : LedgerBatch) : Except LedgerError LedgerState :=
  if postings = ∅ then .ok ledger else ledger.apply ledger.view.revision postings

theorem post_agrees {f f' : RequestFinancials} {e : RequestFinancialEffects} {l : LedgerState}
    (hstep : f.Step f' e) (hconserved : l.view.Conserved)
    (hbalances : l.view.signedBalance = f.balances) (hrevision : l.view.revision.val ≤ f.stage)
    (haccounts : l.view.balances.length ≤ 4 * f.stage) :
    ∃ l', post l e.postings = .ok l' ∧ l'.view.Conserved ∧ l'.view.signedBalance = f'.balances ∧
      l'.view.revision.val ≤ f'.stage ∧ l'.view.balances.length ≤ 4 * f'.stage := by
  have hcarries := hstep.carries
  have hstage := hstep.stage
  unfold post
  by_cases hempty : e.postings = ∅
  · rw [if_pos hempty]
    refine ⟨l, rfl, hconserved, ?_, by omega, by omega⟩
    funext a
    rw [hbalances, hcarries.posted a, hempty, LedgerBatch.net_empty, add_zero]
  · rw [if_neg hempty]
    have hnext := hstep.posting hempty
    have hle := f'.stage_le
    have hshort := hstep.short
    obtain ⟨v, hv, hlength⟩ := LedgerView.apply_succeeds hconserved hcarries.balanced
      (hbalances ▸ hcarries.funded) (hbalances ▸ hcarries.within) (by omega) (by omega)
    obtain ⟨-, hconserved', -, hrevision', hposted⟩ := LedgerView.apply_spec hv
    refine ⟨⟨v⟩, ?_, hconserved', ?_, by show v.revision.val ≤ _; omega,
      by show v.balances.length ≤ _; omega⟩
    · simp only [LedgerState.apply, ne_eq, not_true_eq_false, refuseIf, if_false, ok_bind, hv]
    · funext a
      rw [hposted, hbalances, ← hcarries.posted a]

section
variable [Crypto]

def perform (f : RequestFinancials) :
    FinancialCall → Except PaymentError (RequestFinancials × RequestFinancialEffects)
  | .settle settlement now => f.settle settlement now
  | .recordPayment receipt => f.recordPayment receipt

def call (b : RequestBooks) (c : FinancialCall) : Except LedgerError RequestBooks :=
  match perform b.financials c with
  | .error _ => .ok b
  | .ok (financials, effects) => do
    let ledger ← post b.ledger effects.postings
    .ok {
      financials, ledger
      operations := b.operations ++ effects.operations
      forfeitures := b.forfeitures ++ effects.forfeitures}

def calls (b : RequestBooks) (cs : List FinancialCall) : Except LedgerError RequestBooks :=
  cs.foldlM call b

/-! ### The invariant of a run -/

/-- The ledger holds exactly the balances the record stands for. -/
structure Agrees (f : RequestFinancials) (b : RequestBooks) : Prop where
  capture : b.financials.capture = f.capture
  contract : b.financials.contract = f.contract
  linked : b.financials.Linked
  conserved : b.ledger.view.Conserved
  balances : b.ledger.view.signedBalance = b.financials.balances
  revision : b.ledger.view.revision.val ≤ b.financials.stage
  accounts : b.ledger.view.balances.length ≤ 4 * b.financials.stage
  refunds : b.operations.count f.contract.refundId = b.financials.refundCount
  forfeits : b.forfeitures.length = b.financials.forfeitureCount

theorem perform_step {f f' : RequestFinancials} {e : RequestFinancialEffects} {c : FinancialCall}
    (hf : f.Linked) (h : perform f c = .ok (f', e)) : f.Step f' e := by
  cases c with
  | settle s now => exact RequestFinancials.settle_step hf h
  | recordPayment receipt => exact RequestFinancials.recordPayment_step hf h

theorem call_agrees {f : RequestFinancials} (b : RequestBooks) (c : FinancialCall)
    (h : b.Agrees f) : ∃ b', call b c = .ok b' ∧ b'.Agrees f := by
  unfold call
  cases hperform : perform b.financials c with
  | error e => exact ⟨b, rfl, h⟩
  | ok result =>
    obtain ⟨financials, effects⟩ := result
    have hstep := perform_step h.linked hperform
    obtain ⟨l, hpost, hconserved, hbalances, hrevision, haccounts⟩ :=
      post_agrees hstep h.conserved h.balances h.revision h.accounts
    refine ⟨_, by simp only [hpost, ok_bind]; rfl, hstep.capture.trans h.capture,
      hstep.contract.trans h.contract, hstep.linked, hconserved, hbalances, hrevision, haccounts,
      ?_, ?_⟩
    · show (b.operations ++ effects.operations).count _ = _
      rw [List.count_append, h.refunds, hstep.refunds, h.contract]
    · show (b.forfeitures ++ effects.forfeitures).length = _
      rw [List.length_append, h.forfeits, hstep.forfeits]

omit [Crypto] in
theorem start_agrees {capture : PaymentOperation} {contract : RequestFinancialContract}
    {f : RequestFinancials} (h : RequestFinancials.new capture contract = .ok f) :
    (start f).Agrees f := by
  obtain ⟨-, -, hstatus, hsettlement, hrefund, -⟩ := RequestFinancials.new_eq_ok h
  refine ⟨rfl, rfl, .unsettled hstatus hsettlement hrefund, LedgerState.new_conserved _,
    (RequestFinancials.new_balances h).symm, Nat.zero_le _, Nat.zero_le _, ?_, ?_⟩
  · simp [start, RequestFinancials.refundCount, hrefund, RefundStatus.operation]
  · simp [start, RequestFinancials.forfeitureCount, hsettlement]

/-- What a refund amounts to, whether or not the processor has confirmed it. -/
def refundAmount : RefundView → ℕ
  | .none => 0
  | .owed amount | .confirmed amount => amount.units

omit [Crypto] in
theorem refundAmount_view (f : RequestFinancials) :
    refundAmount f.view.refund = f.outstanding + f.refunded := by
  unfold RequestFinancials.outstanding RequestFinancials.refunded RequestFinancials.view
  cases f.refund <;> simp [refundAmount]

/-- What a run leaves in the ledger and in the record. -/
structure MoneyConserved (capture : PaymentOperation) (contract : RequestFinancialContract)
    (b : RequestBooks) : Prop where
  escrow : b.ledger.view.signedBalance (.requestEscrow capture.id) =
    (if b.financials.fundingFinalized = true ∧ b.financials.settlement = none
      then capture.amount.units else 0 : ℕ)
  refund : b.ledger.view.signedBalance (.refundPayable contract.refundId) =
    (match b.financials.refund with
      | .pending refund => refund.amount.units
      | _ => 0 : ℕ)
  processing : b.ledger.view.signedBalance .processingRevenue =
    b.financials.view.processingRetained.units
  forfeiture : b.ledger.view.signedBalance (.programClearing capture.id) =
    b.financials.view.collateralForfeited.units
  split : b.financials.fundingFinalized = true → b.financials.settlement ≠ none →
    b.financials.view.processingRetained.units + b.financials.view.collateralForfeited.units +
      refundAmount b.financials.view.refund = capture.amount.units
  oneRefund : b.operations.count contract.refundId ≤ 1
  oneForfeiture : b.forfeitures.length ≤ 1

omit [Crypto] in
theorem Agrees.moneyConserved {f : RequestFinancials} {b : RequestBooks} (hb : b.Agrees f) :
    b.MoneyConserved f.capture f.contract := by
  constructor
  · simp only [hb.balances, RequestFinancials.balances, Holdings.sheet, hb.capture, if_true]
    rw [← hb.capture]
    rfl
  · simp only [hb.balances, RequestFinancials.balances, Holdings.sheet, hb.contract, if_true]
    rfl
  · rw [hb.balances]
    rfl
  · simp only [hb.balances, RequestFinancials.balances, Holdings.sheet, hb.capture, if_true]
    rfl
  · intro hfunded hsettled
    rw [refundAmount_view, ← hb.capture]
    exact hb.linked.charge_split hfunded hsettled
  · rw [hb.refunds]
    unfold RequestFinancials.refundCount
    split_ifs <;> omega
  · rw [hb.forfeits]
    unfold RequestFinancials.forfeitureCount
    split_ifs <;> omega

/-- **Request money is conserved.** Over any calls, in any order, every posting goes
through; the escrow account holds the charge exactly while the capture is funded and not
settled, the refund account what is still to be paid back, and once both have happened
the three ends of the charge add up to it, each created at most once. -/
theorem request_money_conserved {capture : PaymentOperation} {contract : RequestFinancialContract}
    {f : RequestFinancials} (h : RequestFinancials.new capture contract = .ok f)
    (cs : List FinancialCall) :
    ∃ b, (start f).calls cs = .ok b ∧ b.MoneyConserved capture contract := by
  obtain ⟨rfl, rfl, -⟩ := RequestFinancials.new_eq_ok h
  obtain ⟨b, hcalls, hb⟩ := Machine.foldlM_succeeds call_agrees (start_agrees h) cs
  exact ⟨b, hcalls, hb.moneyConserved⟩

end

/-! ### A charge of ten, two of it for processing -/

def exampleScope : FinancialScope where
  deploymentDomain := Vector.replicate 32 1
  operator := ⟨1⟩
  program := ⟨1⟩
  paymentAccount := Vector.replicate 32 2
  protocolVersion := ⟨2⟩

def exampleCapture : PaymentOperation where
  scope := exampleScope
  id := ⟨1⟩
  kind := .capture
  amount := ⟨10⟩
  unit := ⟨1⟩
  destination := Vector.replicate 32 3

def exampleKey : Bytes32 :=
  #v[234, 74, 108, 99, 226, 156, 82, 10, 190, 245, 80, 123, 19, 46, 197, 249, 149, 71, 118,
     174, 190, 190, 123, 146, 66, 30, 234, 105, 20, 70, 210, 44]

def exampleDigest : Bytes32 :=
  #v[64, 217, 29, 10, 157, 107, 190, 156, 58, 20, 243, 88, 98, 244, 170, 87, 80, 12, 70, 248,
     169, 253, 77, 155, 175, 125, 142, 183, 136, 58, 157, 223]

def exampleContract : RequestFinancialContract where
  refundId := ⟨2⟩
  processingCharge := ⟨2⟩
  collateral := ⟨8⟩
  terms := ⟨exampleScope, ⟨1⟩, 300, ⟨1⟩⟩
  providerKey := exampleKey

def exampleReceipt : SignedPaymentEvidence where
  evidence := ⟨⟨1⟩, exampleCapture.id, exampleDigest, .settled⟩
  signature :=
    [174, 196, 104, 169, 244, 232, 12, 60, 124, 81, 192, 63, 186, 110, 44, 252, 39, 215, 221,
     81, 62, 67, 30, 157, 233, 33, 76, 3, 28, 20, 78, 20, 194, 232, 187, 23, 49, 176, 86, 225,
     24, 112, 95, 177, 140, 180, 111, 249, 80, 101, 160, 221, 165, 58, 81, 112, 170, 117, 169,
     205, 182, 54, 98, 8]

/-- The hash and the signature of the example, and no others. -/
@[reducible] def exampleCrypto : Crypto where
  sha256 bytes := if bytes = exampleCapture.digestBytes then exampleDigest else zero32
  validKey key := key = exampleKey
  verifyStrict key message signature := key = exampleKey ∧
    message = exampleReceipt.evidence.signingBytes ∧ signature = exampleReceipt.signature

def exampleRecord : RequestFinancials where
  capture := exampleCapture
  captureStatus := .pending
  refund := .none
  events := ∅
  contract := exampleContract
  settlement := none
  matched := by constructor <;> decide

/-- The example captured, rejected, and its evidence seen again. -/
theorem request_money_conserved_rejected : ∃ b,
    @calls exampleCrypto (start exampleRecord)
      [.recordPayment exampleReceipt, .settle .rejected ⟨5⟩, .recordPayment exampleReceipt] = .ok b ∧
    b.MoneyConserved exampleCapture exampleContract :=
  @request_money_conserved exampleCrypto exampleCapture exampleContract exampleRecord rfl _

end RequestBooks
end CsMail
