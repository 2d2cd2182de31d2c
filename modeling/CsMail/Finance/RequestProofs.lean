import CsMail.Finance.Request
import CsMail.LedgerProofs

/-! The record of one request and the ledger it posts to.

A record stands for a balance in every account it touches (`balances`). Every step
that keeps the record's own fields in agreement (`Linked`) posts exactly the change
of these balances, and each of its transfers is paid for by them (`Step`). -/
namespace CsMail
open Library Journal

/-! ### Balances in the accounts of one request -/

structure Holdings where
  escrow : Int
  refund : Int
  processing : Int
  program : Int
  processor : Int
  loss : Int

namespace Holdings

def sheet (h : Holdings) (capture refund : PaymentOperationId) : Account → Int
  | .requestEscrow id => if id = capture then h.escrow else 0
  | .refundPayable id => if id = refund then h.refund else 0
  | .processingRevenue => h.processing
  | .programClearing id => if id = capture then h.program else 0
  | .processorClearing => h.processor
  | .corporateLossClearing => h.loss
  | _ => 0

/-- Every balance fits the ledger's signed range. -/
structure InRange (h : Holdings) : Prop where
  escrow : -(u64Max : Int) ≤ h.escrow ∧ h.escrow ≤ u64Max
  refund : -(u64Max : Int) ≤ h.refund ∧ h.refund ≤ u64Max
  processing : -(u64Max : Int) ≤ h.processing ∧ h.processing ≤ u64Max
  program : -(u64Max : Int) ≤ h.program ∧ h.program ≤ u64Max
  processor : -(u64Max : Int) ≤ h.processor ∧ h.processor ≤ u64Max
  loss : -(u64Max : Int) ≤ h.loss ∧ h.loss ≤ u64Max

variable {c r : PaymentOperationId} {h : Holdings} {s : Account → Int} {b : LedgerBatch} {m : Money}

theorem InRange.sheet (hr : h.InRange) (a : Account) :
    -(u64Max : Int) ≤ h.sheet c r a ∧ h.sheet c r a ≤ u64Max := by
  obtain ⟨h₁, h₂, h₃, h₄, h₅, h₆⟩ := hr
  cases a <;> simp only [Holdings.sheet]
  all_goals (try split_ifs) <;> omega

theorem carries_capture (hc : b.Carries s (h.sheet c r))
    (hr : {h with processor := h.processor - m.units, escrow := h.escrow + m.units}.InRange) :
    (b.transfer .processorClearing (.requestEscrow c) m).Carries s
      ({h with processor := h.processor - m.units, escrow := h.escrow + m.units}.sheet c r) := by
  refine hc.transfer (by simp) nofun (fun a => ?_) hr.sheet
  cases a <;> simp only [post, sheet, Account.requestEscrow.injEq, reduceCtorEq, if_true, if_false,
    eq_comm]
  all_goals (try split_ifs) <;> omega

theorem carries_refund (hc : b.Carries s (h.sheet c r)) (hheld : m.units ≤ h.escrow)
    (hr : {h with escrow := h.escrow - m.units, refund := h.refund + m.units}.InRange) :
    (b.transfer (.requestEscrow c) (.refundPayable r) m).Carries s
      ({h with escrow := h.escrow - m.units, refund := h.refund + m.units}.sheet c r) := by
  refine hc.transfer (by simp) (fun _ => by simpa [sheet] using hheld) (fun a => ?_) hr.sheet
  cases a <;> simp only [post, sheet, Account.requestEscrow.injEq, Account.refundPayable.injEq,
    reduceCtorEq, if_false, eq_comm]
  all_goals (try split_ifs) <;> omega

theorem carries_processing (hc : b.Carries s (h.sheet c r)) (hheld : m.units ≤ h.escrow)
    (hr : {h with escrow := h.escrow - m.units, processing := h.processing + m.units}.InRange) :
    (b.transfer (.requestEscrow c) .processingRevenue m).Carries s
      ({h with escrow := h.escrow - m.units, processing := h.processing + m.units}.sheet c r) := by
  refine hc.transfer (by simp) (fun _ => by simpa [sheet] using hheld) (fun a => ?_) hr.sheet
  cases a <;> simp only [post, sheet, Account.requestEscrow.injEq, reduceCtorEq, if_true, if_false,
    eq_comm]
  all_goals (try split_ifs) <;> omega

theorem carries_forfeiture (hc : b.Carries s (h.sheet c r)) (hheld : m.units ≤ h.escrow)
    (hr : {h with escrow := h.escrow - m.units, program := h.program + m.units}.InRange) :
    (b.transfer (.requestEscrow c) (.programClearing c) m).Carries s
      ({h with escrow := h.escrow - m.units, program := h.program + m.units}.sheet c r) := by
  refine hc.transfer (by simp) (fun _ => by simpa [sheet] using hheld) (fun a => ?_) hr.sheet
  cases a <;> simp only [post, sheet, Account.requestEscrow.injEq, Account.programClearing.injEq,
    reduceCtorEq, if_false, eq_comm]
  all_goals (try split_ifs) <;> omega

theorem carries_reversal (hc : b.Carries s (h.sheet c r))
    (hr : {h with loss := h.loss - m.units, processor := h.processor + m.units}.InRange) :
    (b.transfer .corporateLossClearing .processorClearing m).Carries s
      ({h with loss := h.loss - m.units, processor := h.processor + m.units}.sheet c r) := by
  refine hc.transfer (by simp) nofun (fun a => ?_) hr.sheet
  cases a <;> simp only [post, sheet, reduceCtorEq, if_true, if_false]
  all_goals omega

theorem carries_confirmation (hc : b.Carries s (h.sheet c r)) (hheld : m.units ≤ h.refund)
    (hr : {h with refund := h.refund - m.units, processor := h.processor + m.units}.InRange) :
    (b.transfer (.refundPayable r) .processorClearing m).Carries s
      ({h with refund := h.refund - m.units, processor := h.processor + m.units}.sheet c r) := by
  refine hc.transfer (by simp) (fun _ => by simpa [sheet] using hheld) (fun a => ?_) hr.sheet
  cases a <;> simp only [post, sheet, Account.refundPayable.injEq, reduceCtorEq, if_true, if_false,
    eq_comm]
  all_goals (try split_ifs) <;> omega

end Holdings

namespace RequestFinancials

theorem units_pos (f : RequestFinancials) : 0 < f.capture.amount.units :=
  Money.isZero_eq_false.mp f.matched.amount

theorem units_charge (f : RequestFinancials) :
    f.capture.amount.units = f.contract.processingCharge.units + f.contract.collateral.units :=
  Money.checkedAdd_eq_some.mp f.matched.charge

theorem new_eq_ok {capture : PaymentOperation} {contract : RequestFinancialContract}
    {f : RequestFinancials} (h : new capture contract = .ok f) :
    f.capture = capture ∧ f.contract = contract ∧ f.captureStatus = .pending ∧
      f.settlement = none ∧ f.refund = .none ∧ f.events = ∅ := by
  unfold new at h
  split at h
  · cases h
  · split_ifs at h
    cases h
    exact ⟨rfl, rfl, rfl, rfl, rfl, rfl⟩

/-! ### The refund a settlement owes -/

def owedRefund (f : RequestFinancials) : Option PaymentOperation :=
  match f.settlement with
  | some .accepted | some .cancelled =>
    if f.fundingFinalized then some (f.refundOperation f.capture.amount) else none
  | some .expired =>
    if f.contract.collateral.isZero then none else some (f.refundOperation f.contract.collateral)
  | some .rejected | none => none

/-- The fields agree: only a cancellation settles an unfunded capture, and the refund
recorded is the one the settlement owes. -/
structure Linked (f : RequestFinancials) : Prop where
  pending : f.captureStatus = .pending → f.settlement = none
  stopped : f.captureStatus = .cancellationRequested ∨ f.captureStatus = .voided →
    f.settlement = some .cancelled
  refund : f.refund.operation = f.owedRefund

theorem Linked.unsettled {f : RequestFinancials} (hstatus : f.captureStatus = .pending)
    (hsettlement : f.settlement = none) (hrefund : f.refund = .none) : f.Linked := by
  refine ⟨fun _ => hsettlement, fun h => by simp [hstatus] at h, ?_⟩
  rw [hrefund, owedRefund, hsettlement]
  rfl

/-! ### The balances a record stands for -/

/-- Money captured and not yet settled. -/
def escrowed (f : RequestFinancials) : ℕ :=
  if f.fundingFinalized = true ∧ f.settlement = none then f.capture.amount.units else 0

/-- The refund recorded and not yet confirmed. -/
def outstanding (f : RequestFinancials) : ℕ :=
  match f.refund with
  | .pending o => o.amount.units
  | _ => 0

def refunded (f : RequestFinancials) : ℕ :=
  match f.refund with
  | .confirmed o => o.amount.units
  | _ => 0

def captured (f : RequestFinancials) : ℕ := if f.fundingFinalized then f.capture.amount.units else 0

def lost (f : RequestFinancials) : ℕ := if f.captureReversed then f.capture.amount.units else 0

def retained (f : RequestFinancials) : ℕ := f.view.processingRetained.units

def forfeited (f : RequestFinancials) : ℕ := f.view.collateralForfeited.units

def holdings (f : RequestFinancials) : Holdings where
  escrow := f.escrowed
  refund := f.outstanding
  processing := f.retained
  program := f.forfeited
  processor := f.refunded + f.lost - f.captured
  loss := -f.lost

/-- The balances the record stands for. -/
def balances (f : RequestFinancials) : Account → Int :=
  f.holdings.sheet f.capture.id f.contract.refundId

theorem balances_nonneg (f : RequestFinancials) {a : Account} (h : a.permitsNegative = false) :
    0 ≤ f.balances a := by
  cases a <;> simp only [balances, Holdings.sheet, holdings, Account.permitsNegative,
    Bool.true_eq_false] at h ⊢
  all_goals (try split_ifs) <;> omega

/-- A new record stands for nothing yet. -/
theorem new_balances {capture : PaymentOperation} {contract : RequestFinancialContract}
    {f : RequestFinancials} (h : new capture contract = .ok f) : f.balances = fun _ => 0 := by
  obtain ⟨-, -, hstatus, hsettlement, hrefund, -⟩ := new_eq_ok h
  funext a
  cases a <;> simp [balances, Holdings.sheet, holdings, escrowed, outstanding, retained, forfeited,
    view, refunded, lost, captured, captureReversed, fundingFinalized, hstatus, hsettlement, hrefund]

/-! ### Steps -/

/-- How far the record has come: no step goes back, and every posting goes on. -/
def stage (f : RequestFinancials) : ℕ :=
  (if f.fundingFinalized then 1 else 0) + (if f.captureReversed then 1 else 0) +
    (if f.settlement.isSome then 1 else 0) +
    match f.refund with
    | .confirmed _ => 1
    | _ => 0

theorem stage_le (f : RequestFinancials) : f.stage ≤ 4 := by
  unfold stage
  cases f.refund <;> simp only <;> split_ifs <;> omega

/-- How many refunds and forfeitures the record has created. -/
def refundCount (f : RequestFinancials) : ℕ := if f.refund.operation.isSome then 1 else 0

def forfeitureCount (f : RequestFinancials) : ℕ :=
  if f.settlement = some .rejected ∧ f.contract.collateral.isZero = false then 1 else 0

/-- What one step of the record does to the ledger, and what it creates. -/
structure Step (f f' : RequestFinancials) (e : RequestFinancialEffects) : Prop where
  capture : f'.capture = f.capture
  contract : f'.contract = f.contract
  linked : f'.Linked
  carries : e.postings.Carries f.balances f'.balances
  short : e.postings.transfers.length ≤ 2
  stage : f.stage ≤ f'.stage
  posting : e.postings ≠ ∅ → f.stage < f'.stage
  refunds : f'.refundCount = f.refundCount + e.operations.count f.contract.refundId
  forfeits : f'.forfeitureCount = f.forfeitureCount + e.forfeitures.length

theorem Linked.funded {f : RequestFinancials} (hf : f.Linked) {s : RequestSettlement}
    (hs : f.settlement = some s) (hne : s ≠ .cancelled) : f.fundingFinalized = true := by
  have hpending := hf.pending
  have hstopped := hf.stopped
  cases hstatus : f.captureStatus <;> simp_all [fundingFinalized]

/-- A recorded refund is at most the capture it returns. -/
theorem Linked.refund_le {f : RequestFinancials} (hf : f.Linked) :
    f.outstanding + f.refunded ≤ f.captured := by
  have hcharge := f.units_charge
  have hrefund := hf.refund
  have hamount : ∀ o, f.refund.operation = some o → o.amount.units ≤ f.captured := by
    intro o ho
    rw [hrefund, owedRefund] at ho
    cases hs : f.settlement with
    | none => simp [hs] at ho
    | some s =>
      cases s <;> simp only [hs, reduceCtorEq] at ho <;> split_ifs at ho with hif <;> cases ho
      · simp [refundOperation, captured, hif]
      · have := hf.funded hs (by simp)
        simp only [refundOperation, captured, this, if_true]
        omega
      · simp [refundOperation, captured, hif]
  unfold outstanding refunded
  cases hcase : f.refund <;> simp only [hcase, RefundStatus.operation, Option.some.injEq,
    forall_eq'] at hamount ⊢ <;> omega

theorem lost_le (f : RequestFinancials) : f.lost ≤ f.captured := by
  unfold lost captured captureReversed fundingFinalized
  cases f.captureStatus <;> simp

theorem captured_le (f : RequestFinancials) : f.captured ≤ f.capture.amount.units := by
  unfold captured
  split_ifs <;> omega

theorem Linked.inRange {f : RequestFinancials} (hf : f.Linked) : f.holdings.InRange := by
  have hcharge := f.units_charge
  have hmax := f.capture.amount.units_le
  have hrefund := hf.refund_le
  have hlost := f.lost_le
  have hcaptured := f.captured_le
  have hescrow : f.escrowed ≤ f.capture.amount.units := by
    unfold escrowed
    split_ifs <;> omega
  have hsplit : f.retained + f.forfeited ≤ f.capture.amount.units := by
    unfold retained forfeited view
    cases f.settlement with
    | none => simp
    | some s => cases s <;> simp <;> omega
  constructor <;> simp only [holdings] <;> omega

/-- A step that posts nothing. -/
theorem Step.silent {f f' : RequestFinancials} {e : RequestFinancialEffects} (hf : f.Linked)
    (hcapture : f'.capture = f.capture) (hcontract : f'.contract = f.contract) (hlinked : f'.Linked)
    (hholdings : f'.holdings = f.holdings) (hstage : f.stage ≤ f'.stage) (he : e.postings = ∅)
    (hrefunds : f'.refundCount = f.refundCount + e.operations.count f.contract.refundId)
    (hforfeits : f'.forfeitureCount = f.forfeitureCount + e.forfeitures.length) : f.Step f' e := by
  have hbalances : f'.balances = f.balances := by
    rw [balances, balances, hholdings, hcapture, hcontract]
  refine ⟨hcapture, hcontract, hlinked, ?_, ?_, hstage, fun hne => absurd he hne, hrefunds, hforfeits⟩
  · rw [he, hbalances]
    exact .empty hf.inRange.sheet
  · rw [he]
    exact Nat.zero_le _

/-- A step that posts and goes a stage further. -/
theorem Step.post {f f' : RequestFinancials} {e : RequestFinancialEffects}
    (hcapture : f'.capture = f.capture) (hcontract : f'.contract = f.contract) (hlinked : f'.Linked)
    (hstage : f.stage < f'.stage) (hshort : e.postings.transfers.length ≤ 2) {h : Holdings}
    (hcarries : e.postings.Carries f.balances (h.sheet f.capture.id f.contract.refundId))
    (hholdings : f'.holdings = h)
    (hrefunds : f'.refundCount = f.refundCount + e.operations.count f.contract.refundId)
    (hforfeits : f'.forfeitureCount = f.forfeitureCount + e.forfeitures.length) : f.Step f' e := by
  refine ⟨hcapture, hcontract, hlinked, ?_, hshort, hstage.le, fun _ => hstage, hrefunds, hforfeits⟩
  rw [balances.eq_1 f', hholdings, hcapture, hcontract]
  exact hcarries

theorem createRefund_of_none {f : RequestFinancials} {amount : Money}
    (effects : RequestFinancialEffects) (hamount : amount.isZero = false) (h : f.refund = .none) :
    f.createRefund amount effects = .ok ({f with refund := .pending (f.refundOperation amount)},
      {effects with
        postings := effects.postings.transfer (.requestEscrow f.capture.id)
          (.refundPayable f.contract.refundId) amount
        operations := effects.operations ++ [f.contract.refundId]}) := by
  simp [createRefund, hamount, h, RefundStatus.operation, refundOperation]

theorem Linked.unsettled_refund {f : RequestFinancials} (hf : f.Linked)
    (hs : f.settlement = none ∨ f.fundingFinalized = false) : f.refund = .none := by
  have howed : f.owedRefund = none := by
    unfold owedRefund
    cases hcase : f.settlement with
    | none => rfl
    | some s =>
      have hunfunded : f.fundingFinalized = false := hs.resolve_left (by simp [hcase])
      cases s <;> simp [hunfunded]
      exact absurd (hf.funded hcase (by simp)) (by simp [hunfunded])
  have := hf.refund
  rw [howed] at this
  cases hcase : f.refund <;> simp_all [RefundStatus.operation]

section Settle
variable {f : RequestFinancials} {now : CanonicalTime}

theorem settle_again {s : RequestSettlement} (h : f.settlement = some s) :
    f.settle s now = .ok (f, {}) := by
  simp [settle, h]

theorem settle_conflict {s s' : RequestSettlement} (h : f.settlement = some s) (hne : s ≠ s') :
    f.settle s' now = .error .duplicateConflict := by
  simp [settle, h, hne]

theorem settle_unfunded {s : RequestSettlement} (h : f.settlement = none)
    (hfunded : f.fundingFinalized = false) (hne : s ≠ .cancelled) :
    f.settle s now = .error .invalidOperation := by
  simp [settle, h, hfunded, hne]

theorem settle_rejected (h : f.settlement = none) (hfunded : f.fundingFinalized = true) :
    f.settle .rejected now = .ok
      ({f with settlement := some .rejected},
        {postings := ((∅ : LedgerBatch).transfer (.requestEscrow f.capture.id) .processingRevenue
            f.contract.processingCharge).transfer (.requestEscrow f.capture.id)
            (.programClearing f.capture.id) f.contract.collateral,
         forfeitures := if f.contract.collateral.isZero then [] else [{
          id := f.capture.id
          amount := f.contract.collateral
          unit := f.capture.unit
          forfeitedAt := now
          terms := f.contract.terms
          requiresReview := f.captureReversed}]}) := by
  by_cases hzero : f.contract.collateral.isZero = true
  · simp [settle, h, hfunded, hzero, LedgerBatch.transfer]
  · simp [settle, h, hfunded, hzero, captureReversed]

variable (hf : f.Linked) (h : f.settlement = none)
include hf h

theorem settle_accepted (hfunded : f.fundingFinalized = true) : f.settle .accepted now = .ok
    ({f with settlement := some .accepted, refund := .pending (f.refundOperation f.capture.amount)},
      {postings := (∅ : LedgerBatch).transfer (.requestEscrow f.capture.id)
        (.refundPayable f.contract.refundId) f.capture.amount,
       operations := [f.contract.refundId]}) := by
  have hrefund := hf.unsettled_refund (.inl h)
  have hamount := f.matched.amount
  simp [settle, h, hfunded, createRefund, hamount, hrefund, RefundStatus.operation, refundOperation]

theorem settle_cancelled_funded (hfunded : f.fundingFinalized = true) : f.settle .cancelled now = .ok
    ({f with settlement := some .cancelled, refund := .pending (f.refundOperation f.capture.amount)},
      {postings := (∅ : LedgerBatch).transfer (.requestEscrow f.capture.id)
        (.refundPayable f.contract.refundId) f.capture.amount,
       operations := [f.contract.refundId]}) := by
  have hrefund := hf.unsettled_refund (.inl h)
  have hamount := f.matched.amount
  simp only [fundingFinalized] at hfunded
  simp [settle, h, hfunded, createRefund, hamount, hrefund, RefundStatus.operation, refundOperation,
    fundingFinalized]

theorem settle_cancelled_unfunded (hfunded : f.fundingFinalized = false) :
    f.settle .cancelled now = .ok
      ({f with settlement := some .cancelled, captureStatus := .cancellationRequested},
        {operations := [f.capture.id]}) := by
  have hvoided : f.captureStatus ≠ .voided := fun hv => by
    have := hf.stopped (.inr hv)
    rw [h] at this
    cases this
  simp only [fundingFinalized] at hfunded
  simp [settle, h, hfunded, fundingFinalized, captureVoided, hvoided]

theorem settle_expired (hfunded : f.fundingFinalized = true) : f.settle .expired now = .ok
    ({f with
        settlement := some .expired
        refund := if f.contract.collateral.isZero then .none
          else .pending (f.refundOperation f.contract.collateral)},
      {postings := ((∅ : LedgerBatch).transfer (.requestEscrow f.capture.id) .processingRevenue
          f.contract.processingCharge).transfer (.requestEscrow f.capture.id)
          (.refundPayable f.contract.refundId) f.contract.collateral,
       operations := if f.contract.collateral.isZero then [] else [f.contract.refundId]}) := by
  have hrefund := hf.unsettled_refund (.inl h)
  by_cases hzero : f.contract.collateral.isZero = true
  · simp [settle, h, hfunded, createRefund, hzero, hrefund, LedgerBatch.transfer]
  · simp [settle, h, hfunded, createRefund, hzero, hrefund, RefundStatus.operation, refundOperation]

end Settle

theorem fundingFinalized_iff {f : RequestFinancials} : f.fundingFinalized = true ↔
    f.captureStatus = .fundingFinalized ∨ f.captureStatus = .reversed := by
  unfold fundingFinalized
  cases f.captureStatus <;> simp

/-- **The charge is split.** Once a capture is funded and settled, what is kept, what is
forfeited and what is refunded add up to it. -/
theorem Linked.charge_split {f : RequestFinancials} (hf : f.Linked)
    (hfunded : f.fundingFinalized = true) (hsettled : f.settlement ≠ none) :
    f.retained + f.forfeited + (f.outstanding + f.refunded) = f.capture.amount.units := by
  have hcharge := f.units_charge
  have hamount : f.outstanding + f.refunded = (f.owedRefund.map fun o => o.amount.units).getD 0 := by
    rw [← hf.refund]
    unfold outstanding refunded
    cases f.refund <;> simp [RefundStatus.operation]
  rw [hamount]
  cases hs : f.settlement with
  | none => exact absurd hs hsettled
  | some s =>
    cases s with
    | accepted | cancelled =>
      simp [retained, forfeited, view, owedRefund, hs, hfunded, refundOperation]
    | rejected =>
      simp [retained, forfeited, view, owedRefund, hs]
      omega
    | expired =>
      cases hzero : f.contract.collateral.isZero with
      | true =>
        have := Money.isZero_iff.mp hzero
        simp [retained, forfeited, view, owedRefund, hs, hzero]
        omega
      | false =>
        simp [retained, forfeited, view, owedRefund, hs, hzero, refundOperation]
        omega

/-! ### Every step of the record is a step of the ledger -/

section Steps
attribute [local simp] holdings escrowed outstanding refunded retained forfeited view lost captured
  captureReversed fundingFinalized stage owedRefund refundOperation RefundStatus.operation
  refundCount forfeitureCount

variable {f f' : RequestFinancials} {e : RequestFinancialEffects}

theorem Linked.start (hf : f.Linked) :
    (∅ : LedgerBatch).Carries f.balances (f.holdings.sheet f.capture.id f.contract.refundId) :=
  .empty hf.inRange.sheet

/-- The whole capture becomes a refund. -/
theorem return_step {s : RequestSettlement} (hf : f.Linked) (hsettled : f.settlement = none)
    (hfunded : f.fundingFinalized = true) (hs : s = .accepted ∨ s = .cancelled) :
    f.Step {f with settlement := some s, refund := .pending (f.refundOperation f.capture.amount)}
      {postings := (∅ : LedgerBatch).transfer (.requestEscrow f.capture.id)
        (.refundPayable f.contract.refundId) f.capture.amount,
       operations := [f.contract.refundId]} := by
  have hmax := f.capture.amount.units_le
  have hrefund := hf.unsettled_refund (.inl hsettled)
  have hstatus := fundingFinalized_iff.mp hfunded
  refine .post rfl rfl ⟨?_, ?_, ?_⟩ ?_ ?_ (Holdings.carries_refund hf.start ?_ ?_) ?_ ?_ ?_
  · rcases hstatus with h | h <;> simp [h]
  · rcases hstatus with h | h <;> simp [h]
  · rcases hstatus with h | h <;> rcases hs with rfl | rfl <;> simp [h]
  · rcases hstatus with h | h <;> simp [h, hsettled, hrefund]
  · exact (LedgerBatch.length_transfer_le _ _ _ _).trans (by decide)
  · rcases hstatus with h | h <;> simp [h, hsettled]
  · rcases hstatus with h | h <;> constructor <;> simp [h, hsettled, hrefund] <;> omega
  · rcases hstatus with h | h <;> rcases hs with rfl | rfl <;> simp [h, hsettled, hrefund]
  · simp [hrefund]
  · rcases hs with rfl | rfl <;> simp [hsettled]

theorem rejected_step (hf : f.Linked) (hsettled : f.settlement = none)
    (hfunded : f.fundingFinalized = true) (forfeitures : List Forfeiture)
    (hlength : forfeitures.length = if f.contract.collateral.isZero then 0 else 1) :
    f.Step {f with settlement := some .rejected}
      {postings := ((∅ : LedgerBatch).transfer (.requestEscrow f.capture.id) .processingRevenue
          f.contract.processingCharge).transfer (.requestEscrow f.capture.id)
          (.programClearing f.capture.id) f.contract.collateral, forfeitures} := by
  have hcharge := f.units_charge
  have hmax := f.capture.amount.units_le
  have hrefund := hf.unsettled_refund (.inl hsettled)
  have hstatus := fundingFinalized_iff.mp hfunded
  refine .post rfl rfl ⟨?_, ?_, ?_⟩ ?_ ?_
    (Holdings.carries_forfeiture (Holdings.carries_processing hf.start ?_ ?_) ?_ ?_) ?_ rfl ?_
  · rcases hstatus with h | h <;> simp [h]
  · rcases hstatus with h | h <;> simp [h]
  · simp [hrefund]
  · rcases hstatus with h | h <;> simp [h, hsettled]
  · exact (LedgerBatch.length_transfer_le _ _ _ _).trans
      (Nat.succ_le_succ (LedgerBatch.length_transfer_le _ _ _ _))
  · rcases hstatus with h | h <;> simp [h, hsettled] <;> omega
  · rcases hstatus with h | h <;> constructor <;> simp [h, hsettled, hrefund] <;> omega
  · rcases hstatus with h | h <;> simp [h, hsettled] <;> omega
  · rcases hstatus with h | h <;> constructor <;> simp [h, hsettled, hrefund] <;> omega
  · rcases hstatus with h | h <;> simp [h, hsettled, hrefund] <;> omega
  · cases hzero : f.contract.collateral.isZero <;> simp [hsettled, hlength, hzero]

theorem expired_step (hf : f.Linked) (hsettled : f.settlement = none)
    (hfunded : f.fundingFinalized = true) :
    f.Step {f with
        settlement := some .expired
        refund := if f.contract.collateral.isZero then .none
          else .pending (f.refundOperation f.contract.collateral)}
      {postings := ((∅ : LedgerBatch).transfer (.requestEscrow f.capture.id) .processingRevenue
          f.contract.processingCharge).transfer (.requestEscrow f.capture.id)
          (.refundPayable f.contract.refundId) f.contract.collateral,
       operations := if f.contract.collateral.isZero then [] else [f.contract.refundId]} := by
  have hcharge := f.units_charge
  have hmax := f.capture.amount.units_le
  have hrefund := hf.unsettled_refund (.inl hsettled)
  have hstatus := fundingFinalized_iff.mp hfunded
  refine .post rfl rfl ⟨?_, ?_, ?_⟩ ?_ ?_
    (Holdings.carries_refund (Holdings.carries_processing hf.start ?_ ?_) ?_ ?_) ?_ ?_ ?_
  · rcases hstatus with h | h <;> simp [h]
  · rcases hstatus with h | h <;> simp [h]
  · cases hzero : f.contract.collateral.isZero <;> simp [hzero]
  · cases hzero : f.contract.collateral.isZero <;> rcases hstatus with h | h <;>
      simp [h, hsettled, hrefund]
  · exact (LedgerBatch.length_transfer_le _ _ _ _).trans
      (Nat.succ_le_succ (LedgerBatch.length_transfer_le _ _ _ _))
  · rcases hstatus with h | h <;> simp [h, hsettled] <;> omega
  · rcases hstatus with h | h <;> constructor <;> simp [h, hsettled, hrefund] <;> omega
  · rcases hstatus with h | h <;> simp [h, hsettled] <;> omega
  · rcases hstatus with h | h <;> constructor <;> simp [h, hsettled, hrefund] <;> omega
  · cases hzero : f.contract.collateral.isZero with
    | true =>
      have := Money.isZero_iff.mp hzero
      rcases hstatus with h | h <;> simp [h, hsettled, hrefund] <;> omega
    | false => rcases hstatus with h | h <;> simp [h, hsettled, hrefund] <;> omega
  · cases f.contract.collateral.isZero <;> simp [hrefund]
  · simp [hsettled]

theorem settle_step {s : RequestSettlement} {now : CanonicalTime} (hf : f.Linked)
    (h : f.settle s now = .ok (f', e)) : f.Step f' e := by
  cases hsettled : f.settlement with
  | some previous =>
    simp only [settle, hsettled] at h
    split_ifs at h
    cases h
    exact .silent hf rfl rfl hf rfl le_rfl rfl rfl rfl
  | none =>
    cases hfunded : f.fundingFinalized with
    | false =>
      by_cases hs : s = .cancelled
      · subst hs
        rw [settle_cancelled_unfunded hf hsettled hfunded] at h
        cases h
        have hrefund := hf.unsettled_refund (.inl hsettled)
        have hstatus : f.captureStatus = .pending := by
          have := hf.stopped
          cases hstatus : f.captureStatus <;> simp_all
        refine .silent hf rfl rfl ⟨nofun, fun _ => rfl, ?_⟩ ?_ ?_ rfl ?_ ?_
        · simp [hrefund]
        · simp [hrefund, hsettled, hstatus]
        · simp [hrefund, hsettled, hstatus]
        · simp [hrefund, f.matched.refundId]
        · simp [hsettled]
      · rw [settle_unfunded hsettled hfunded hs] at h
        cases h
    | true =>
      cases s with
      | accepted =>
        cases (settle_accepted hf hsettled hfunded).symm.trans h
        exact return_step hf hsettled hfunded (.inl rfl)
      | rejected =>
        cases (settle_rejected hsettled hfunded).symm.trans h
        exact rejected_step hf hsettled hfunded _ (by split_ifs <;> rfl)
      | expired =>
        cases (settle_expired hf hsettled hfunded).symm.trans h
        exact expired_step hf hsettled hfunded
      | cancelled =>
        cases (settle_cancelled_funded hf hsettled hfunded).symm.trans h
        exact return_step hf hsettled hfunded (.inr rfl)

theorem Linked.unfunded_settlement (hf : f.Linked) (hfunded : f.fundingFinalized = false) :
    f.settlement = none ∨ f.settlement = some .cancelled := by
  cases hs : f.settlement with
  | none => exact .inl rfl
  | some s =>
    by_contra hne
    have := hf.funded hs (by simpa using hne)
    rw [hfunded] at this
    cases this

/-- A capture confirmed while the request is open. -/
theorem capture_step (hf : f.Linked) (hsettled : f.settlement = none)
    (hfunded : f.fundingFinalized = false) :
    f.Step {f with captureStatus := .fundingFinalized}
      {postings := (∅ : LedgerBatch).transfer .processorClearing (.requestEscrow f.capture.id)
        f.capture.amount} := by
  have hmax := f.capture.amount.units_le
  have hrefund := hf.unsettled_refund (.inl hsettled)
  have hreversed : f.captureStatus ≠ .reversed := fun h => by simp [h] at hfunded
  refine .post rfl rfl ⟨nofun, nofun, ?_⟩ ?_ ?_ (Holdings.carries_capture hf.start ?_) ?_ rfl rfl
  · simp [hsettled, hrefund]
  · simp [hsettled, hrefund] at hfunded ⊢
    simp [hfunded, hreversed]
  · exact (LedgerBatch.length_transfer_le _ _ _ _).trans (by decide)
  · simp only [fundingFinalized] at hfunded
    constructor <;> simp [hfunded, hsettled, hrefund, hreversed] <;> omega
  · simp only [fundingFinalized] at hfunded
    simp [hfunded, hsettled, hrefund, hreversed]

/-- A capture confirmed after the request was cancelled: all of it is owed back. -/
theorem late_capture_step (hf : f.Linked) (hsettled : f.settlement = some .cancelled)
    (hfunded : f.fundingFinalized = false) :
    f.Step {f with
        captureStatus := .fundingFinalized
        refund := .pending (f.refundOperation f.capture.amount)}
      {postings := ((∅ : LedgerBatch).transfer .processorClearing (.requestEscrow f.capture.id)
          f.capture.amount).transfer (.requestEscrow f.capture.id)
          (.refundPayable f.contract.refundId) f.capture.amount,
       operations := [f.contract.refundId]} := by
  have hmax := f.capture.amount.units_le
  have hrefund := hf.unsettled_refund (.inr hfunded)
  have hreversed : f.captureStatus ≠ .reversed := fun h => by simp [h] at hfunded
  refine .post rfl rfl ⟨nofun, nofun, ?_⟩ ?_ ?_
    (Holdings.carries_refund (Holdings.carries_capture hf.start ?_) ?_ ?_) ?_ ?_ rfl
  · simp [hsettled]
  · simp only [fundingFinalized] at hfunded
    simp [hfunded, hsettled, hrefund, hreversed]
  · exact (LedgerBatch.length_transfer_le _ _ _ _).trans
      (Nat.succ_le_succ (LedgerBatch.length_transfer_le _ _ _ _))
  · simp only [fundingFinalized] at hfunded
    constructor <;> simp [hfunded, hsettled, hrefund, hreversed] <;> omega
  · simp [hsettled]
  · simp only [fundingFinalized] at hfunded
    constructor <;> simp [hfunded, hsettled, hrefund, hreversed] <;> omega
  · simp only [fundingFinalized] at hfunded
    simp [hfunded, hsettled, hrefund, hreversed]
  · simp [hrefund]

theorem void_step (hf : f.Linked) (hfunded : f.fundingFinalized = false) :
    f.Step {f with captureStatus := .voided, settlement := some .cancelled}
      {captureVoided := true} := by
  have hrefund := hf.unsettled_refund (.inr hfunded)
  have hreversed : f.captureStatus ≠ .reversed := fun h => by simp [h] at hfunded
  refine .silent hf rfl rfl ⟨nofun, fun _ => rfl, ?_⟩ ?_ ?_ rfl rfl ?_
  · simp [hrefund]
  · simp only [fundingFinalized] at hfunded
    rcases hf.unfunded_settlement hfunded with hs | hs <;> simp [hfunded, hs, hrefund, hreversed]
  · simp only [fundingFinalized] at hfunded
    rcases hf.unfunded_settlement hfunded with hs | hs <;> simp [hfunded, hs, hrefund, hreversed]
  · rcases hf.unfunded_settlement hfunded with hs | hs <;> simp [hs]

theorem reversal_step (hf : f.Linked) (hstatus : f.captureStatus = .fundingFinalized)
    (holds : List PaymentOperationId) :
    f.Step {f with captureStatus := .reversed}
      {postings := (∅ : LedgerBatch).transfer .corporateLossClearing .processorClearing
        f.capture.amount, holds} := by
  have hmax := f.capture.amount.units_le
  have hle := hf.refund_le
  have hrange := hf.inRange
  refine .post rfl rfl ⟨nofun, nofun, ?_⟩ ?_ ?_ (Holdings.carries_reversal hf.start ?_) ?_ rfl rfl
  · have := hf.refund
    simp only [owedRefund, fundingFinalized, hstatus] at this
    exact this
  · simp [hstatus]
  · exact (LedgerBatch.length_transfer_le _ _ _ _).trans (by decide)
  · refine ⟨hrange.escrow, hrange.refund, hrange.processing, hrange.program, ?_, ?_⟩
    · simp [hstatus] at hle ⊢
      omega
    · simp [hstatus]
      omega
  · simp [hstatus]

theorem Linked.refund_id (hf : f.Linked) {o : PaymentOperation} (ho : f.refund.operation = some o) :
    o.id = f.contract.refundId := by
  have h := hf.refund
  rw [ho, owedRefund] at h
  cases hs : f.settlement with
  | none => simp [hs] at h
  | some s => cases s <;> simp only [hs] at h <;> (try split_ifs at h) <;> cases h <;> rfl

theorem confirmation_step (hf : f.Linked) {o : PaymentOperation} (ho : f.refund = .pending o) :
    f.Step {f with refund := .confirmed o}
      {postings := (∅ : LedgerBatch).transfer (.refundPayable o.id) .processorClearing o.amount} := by
  have hle := hf.refund_le
  have hcaptured := f.captured_le
  have hmax := f.capture.amount.units_le
  have hlost := f.lost_le
  have hrange := hf.inRange
  rw [hf.refund_id (by simp [ho])]
  refine .post rfl rfl ⟨hf.pending, hf.stopped, ?_⟩ ?_ ?_
    (Holdings.carries_confirmation hf.start ?_ ?_) ?_ ?_ rfl
  · have := hf.refund
    rw [ho] at this
    exact this
  · simp only [stage, ho]
    exact Nat.lt_succ_self _
  · exact (LedgerBatch.length_transfer_le _ _ _ _).trans (by decide)
  · simp [ho]
  · refine ⟨hrange.escrow, ?_, hrange.processing, hrange.program, ?_, hrange.loss⟩
    · simp only [holdings, outstanding, refunded, ho] at hle ⊢
      omega
    · simp only [holdings, outstanding, refunded, ho] at hle ⊢
      omega
  · simp only [holdings, outstanding, refunded, ho, Holdings.mk.injEq]
    refine ⟨rfl, by omega, rfl, rfl, ?_, rfl⟩
    show (o.amount.units : Int) + f.lost - f.captured = _
    omega
  · simp [ho]

theorem recordCapture_step {outcome : PaymentOutcome} (hf : f.Linked)
    (h : f.recordCapture outcome = .ok (f', e)) : f.Step f' e := by
  have hamount := f.matched.amount
  cases hfunded : f.fundingFinalized with
  | true =>
    have hstatus := fundingFinalized_iff.mp hfunded
    cases outcome with
    | reversed =>
      simp only [recordCapture, hfunded, Bool.true_eq_false, if_false] at h
      by_cases hreversed : f.captureReversed = true
      · rw [if_pos hreversed] at h
        cases h
        exact .silent hf rfl rfl hf rfl le_rfl rfl rfl rfl
      · rw [if_neg hreversed] at h
        cases h
        have : f.captureStatus = .fundingFinalized :=
          hstatus.resolve_right fun hr => hreversed (by simp [hr])
        exact reversal_step hf this _
    | _ =>
      simp only [recordCapture, hfunded, if_true] at h
      cases h
      exact .silent hf rfl rfl hf rfl le_rfl rfl rfl rfl
  | false =>
    cases outcome with
    | pending =>
      cases h
      exact .silent hf rfl rfl hf rfl le_rfl rfl rfl rfl
    | settled =>
      simp only [recordCapture, hfunded, Bool.false_eq_true, if_false] at h
      split_ifs at h with hcancelled
      · rw [@createRefund_of_none {f with captureStatus := .fundingFinalized} f.capture.amount _
          hamount (hf.unsettled_refund (.inr hfunded))] at h
        cases h
        exact late_capture_step hf hcancelled hfunded
      · cases h
        exact capture_step hf ((hf.unfunded_settlement hfunded).resolve_right hcancelled) hfunded
    | reversed =>
      simp only [recordCapture, hfunded, if_true] at h
      cases h
    | _ =>
      simp only [recordCapture, hfunded, Bool.false_eq_true, if_false] at h
      cases h
      exact void_step hf hfunded

theorem recordRefund_step {outcome : PaymentOutcome} (hf : f.Linked)
    (h : f.recordRefund outcome = .ok (f', e)) : f.Step f' e := by
  cases outcome with
  | settled =>
    simp only [recordRefund] at h
    cases hrefund : f.refund with
    | pending o =>
      simp only [hrefund] at h
      cases h
      exact confirmation_step hf hrefund
    | _ =>
      simp only [hrefund] at h
      cases h
      exact .silent hf rfl rfl hf rfl le_rfl rfl rfl rfl
  | pending | failed =>
    cases h
    exact .silent hf rfl rfl hf rfl le_rfl rfl rfl rfl
  | voided | reversed => cases h

/-- Remembering an event changes no balance. -/
theorem Step.remember (h : f.Step f' e) (events : SortedMap FinancialEventId PaymentEvidence) :
    f.Step {f' with events} e :=
  ⟨h.capture, h.contract, ⟨h.linked.pending, h.linked.stopped, h.linked.refund⟩, h.carries, h.short,
    h.stage, h.posting, h.refunds, h.forfeits⟩

theorem verify_operationId [Crypto] {receipt : SignedPaymentEvidence} {key : Bytes32}
    {o : PaymentOperation} (h : receipt.verify key o = .ok ()) :
    receipt.evidence.operationId = o.id := by
  simp only [SignedPaymentEvidence.verify, bind_eq_ok, refuseIf_eq_ok, exists_const, not_or, ne_eq,
    Decidable.not_not] at h
  exact h.1.1

/-- Whatever the record knew, a payment it accepts either was already known or is one of
the two kinds of evidence. -/
theorem recordPayment_cases [Crypto] {receipt : SignedPaymentEvidence}
    (h : f.recordPayment receipt = .ok (f', e)) :
    f' = f ∧ e = {} ∨ ∃ next,
      ((receipt.evidence.operationId = f.capture.id ∧
          f.recordCapture receipt.evidence.outcome = .ok (next, e)) ∨
        (receipt.evidence.operationId ≠ f.capture.id ∧
          f.recordRefund receipt.evidence.outcome = .ok (next, e))) ∧
      f' = {next with events := next.events.insert receipt.evidence.eventId receipt.evidence} := by
  simp only [recordPayment, bind_eq_ok, okOr_eq_ok] at h
  obtain ⟨o, -, ⟨⟩, hverify, h⟩ := h
  have hid := verify_operationId hverify
  cases hevent : f.events.get? receipt.evidence.eventId with
  | some previous =>
    simp only [hevent] at h
    split_ifs at h
    cases h
    exact .inl ⟨rfl, rfl⟩
  | none =>
    simp only [hevent] at h
    split_ifs at h with hcapture
    · obtain ⟨⟨next, e'⟩, hrecord, h⟩ := bind_eq_ok.mp h
      cases h
      exact .inr ⟨next, .inl ⟨hid.trans hcapture, hrecord⟩, rfl⟩
    · obtain ⟨⟨next, e'⟩, hrecord, h⟩ := bind_eq_ok.mp h
      cases h
      exact .inr ⟨next, .inr ⟨fun heq => hcapture (hid.symm.trans heq), hrecord⟩, rfl⟩

theorem recordPayment_step [Crypto] {receipt : SignedPaymentEvidence} (hf : f.Linked)
    (h : f.recordPayment receipt = .ok (f', e)) : f.Step f' e := by
  rcases recordPayment_cases h with ⟨rfl, rfl⟩ | ⟨next, ⟨-, hnext⟩ | ⟨-, hnext⟩, rfl⟩
  · exact .silent hf rfl rfl hf rfl le_rfl rfl rfl rfl
  · exact (recordCapture_step hf hnext).remember _
  · exact (recordRefund_step hf hnext).remember _

/-! ### What a step does to the settlement -/

theorem createRefund_frame {amount : Money} {effects : RequestFinancialEffects}
    (h : f.createRefund amount effects = .ok (f', e)) :
    f'.settlement = f.settlement ∧ f'.captureStatus = f.captureStatus ∧
      e.captureVoided = effects.captureVoided := by
  unfold createRefund at h
  split_ifs at h
  · cases h
    exact ⟨rfl, rfl, rfl⟩
  · dsimp only at h
    split at h
    · split_ifs at h
      cases h
      exact ⟨rfl, rfl, rfl⟩
    · cases h
      exact ⟨rfl, rfl, rfl⟩

/-- A settlement is recorded, and funding stays as it was. -/
theorem settle_settlement {s : RequestSettlement} {now : CanonicalTime} (hf : f.Linked)
    (h : f.settle s now = .ok (f', e)) :
    f'.settlement = some s ∧ f'.fundingFinalized = f.fundingFinalized := by
  cases hsettled : f.settlement with
  | some previous =>
    by_cases hne : previous = s
    · subst hne
      cases (settle_again hsettled).symm.trans h
      exact ⟨hsettled, rfl⟩
    · rw [settle_conflict hsettled hne] at h
      cases h
  | none =>
    cases hfunded : f.fundingFinalized with
    | false =>
      by_cases hs : s = .cancelled
      · subst hs
        cases (settle_cancelled_unfunded hf hsettled hfunded).symm.trans h
        exact ⟨rfl, rfl⟩
      · rw [settle_unfunded hsettled hfunded hs] at h
        cases h
    | true =>
      cases s with
      | accepted =>
        cases (settle_accepted hf hsettled hfunded).symm.trans h
        exact ⟨rfl, hfunded⟩
      | rejected =>
        cases (settle_rejected hsettled hfunded).symm.trans h
        exact ⟨rfl, hfunded⟩
      | expired =>
        cases (settle_expired hf hsettled hfunded).symm.trans h
        exact ⟨rfl, hfunded⟩
      | cancelled =>
        cases (settle_cancelled_funded hf hsettled hfunded).symm.trans h
        exact ⟨rfl, hfunded⟩

/-- An open record can be settled as cancelled, and as anything once it is funded. -/
theorem settle_succeeds {s : RequestSettlement} (now : CanonicalTime) (hf : f.Linked)
    (hsettled : f.settlement = none) (hs : s = .cancelled ∨ f.fundingFinalized = true) :
    ∃ f' e, f.settle s now = .ok (f', e) := by
  cases hfunded : f.fundingFinalized with
  | false =>
    rw [hs.resolve_right (hfunded ▸ Bool.false_ne_true)]
    exact ⟨_, _, settle_cancelled_unfunded hf hsettled hfunded⟩
  | true =>
    cases s with
    | accepted => exact ⟨_, _, settle_accepted hf hsettled hfunded⟩
    | rejected => exact ⟨_, _, settle_rejected hsettled hfunded⟩
    | expired => exact ⟨_, _, settle_expired hf hsettled hfunded⟩
    | cancelled => exact ⟨_, _, settle_cancelled_funded hf hsettled hfunded⟩

/-- Evidence keeps the settlement, except that a capture voided before it was funded is
settled as cancelled. Funding is never withdrawn. -/
theorem recordPayment_settlement [Crypto] {receipt : SignedPaymentEvidence}
    (h : f.recordPayment receipt = .ok (f', e)) :
    (f.fundingFinalized = true → f'.fundingFinalized = true) ∧
      (e.captureVoided = false ∧ f'.settlement = f.settlement ∨
        e.captureVoided = true ∧ f.fundingFinalized = false ∧ f'.settlement = some .cancelled) := by
  rcases recordPayment_cases h with ⟨rfl, rfl⟩ | ⟨next, ⟨-, hnext⟩ | ⟨-, hnext⟩, rfl⟩
  · exact ⟨id, .inl ⟨rfl, rfl⟩⟩
  · cases hfunded : f.fundingFinalized with
    | true =>
      cases hout : receipt.evidence.outcome <;>
        simp only [recordCapture, hout, hfunded, if_true, Bool.true_eq_false, if_false] at hnext
      case reversed => split_ifs at hnext <;> cases hnext <;> simp_all [fundingFinalized]
      all_goals cases hnext; exact ⟨fun _ => hfunded, .inl ⟨rfl, rfl⟩⟩
    | false =>
      cases hout : receipt.evidence.outcome <;>
        simp only [recordCapture, hout, hfunded, if_true, Bool.false_eq_true, if_false] at hnext
      case settled =>
        split_ifs at hnext
        · obtain ⟨hsettlement, -, hvoided⟩ := createRefund_frame hnext
          exact ⟨nofun, .inl ⟨hvoided, hsettlement⟩⟩
        · cases hnext
          exact ⟨nofun, .inl ⟨rfl, rfl⟩⟩
      case reversed => cases hnext
      case pending =>
        cases hnext
        exact ⟨nofun, .inl ⟨rfl, rfl⟩⟩
      all_goals
        cases hnext
        exact ⟨nofun, .inr ⟨rfl, rfl, rfl⟩⟩
  · have hsame : next.settlement = f.settlement ∧ next.captureStatus = f.captureStatus ∧
        e.captureVoided = false := by
      unfold recordRefund at hnext
      split at hnext
      · cases hnext
        exact ⟨rfl, rfl, rfl⟩
      · cases hnext
        exact ⟨rfl, rfl, rfl⟩
      · split at hnext <;> cases hnext <;> exact ⟨rfl, rfl, rfl⟩
      all_goals cases hnext
    refine ⟨fun hfunded => ?_, .inl ⟨hsame.2.2, hsame.1⟩⟩
    simpa only [fundingFinalized, hsame.2.1] using hfunded

end Steps

end RequestFinancials
end CsMail
