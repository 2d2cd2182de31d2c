import CsMail.Finance.ExecutionProofs
import CsMail.Finance.Payable
import CsMail.Finance.RequestLedger

/-! Whole runs of one payable: preparations and receipts, in any order.

`Sound` is what every payable keeps. The ledger follows it: what was paid out less what
came back is the amount or nothing, and the payable's account holds the rest. -/
namespace CsMail
open Library Journal

namespace MemberPayable

/-- The part of a payable that no payment changes passes its checks. -/
structure Allocated (p : MemberPayable) (scope : FinancialScope) (unit : SettlementUnit) : Prop where
  id : p.id.val ≠ 0
  member : p.member.val ≠ 0
  scope : p.scope = scope
  unit : p.unit = unit
  due : ∃ year next cutoff, AnnualDistributionSchedule.year p.distribution = some year ∧
    Checked.succ year = some next ∧ calendarDate next 1 1 = some cutoff ∧ cutoff ≤ p.terms.dueAt

/-- What an allocation was made with. -/
structure Fixed (p p' : MemberPayable) : Prop where
  id : p'.id = p.id
  member : p'.member = p.member
  distribution : p'.distribution = p.distribution
  amount : p'.amount = p.amount
  terms : p'.terms = p.terms
  scope : p'.scope = p.scope
  unit : p'.unit = p.unit
  correction : p'.correction = p.correction

theorem Fixed.paying (p : MemberPayable) (payment : Option PaymentExecution) :
    p.Fixed {p with payment} := ⟨rfl, rfl, rfl, rfl, rfl, rfl, rfl, rfl⟩

theorem Fixed.allocated {p p' : MemberPayable} {scope : FinancialScope} {unit : SettlementUnit}
    (h : p.Fixed p') (hp : p.Allocated scope unit) : p'.Allocated scope unit where
  id := h.id ▸ hp.id
  member := h.member ▸ hp.member
  scope := h.scope ▸ hp.scope
  unit := h.unit ▸ hp.unit
  due := by
    rw [h.distribution, h.terms]
    exact hp.due

section
variable [Crypto] {p p' : MemberPayable} {scope : FinancialScope} {unit : SettlementUnit}
  {bank : VerifiedBankAccount} {now : CanonicalTime} {operation : Option PaymentOperation}
  {receipt : SignedPaymentEvidence} {key : Bytes32} {batch : LedgerBatch}

/-- The payment, once there is one, pays this allocation and can be read back. -/
structure Sound (p : MemberPayable) : Prop where
  valid : ∀ payment, p.payment = some payment → payment.Valid
  pays : ∀ payment, p.payment = some payment → p.Pays p.scope p.unit payment.current

theorem validate_eq_ok (h : p.validate scope unit = .ok ()) : p.Allocated scope unit := by
  simp only [validate, bind_eq_ok, okOr_eq_ok, refuseIf_eq_ok, exists_const, not_or, not_lt, ne_eq,
    Decidable.not_not] at h
  obtain ⟨year, hyear, next, hnext, cutoff, hcutoff, ⟨hid, hmember, hscope, hunit, hdue⟩, -⟩ := h
  exact ⟨hid, hmember, hscope, hunit, year, next, cutoff, hyear, hnext, hcutoff, hdue⟩

theorem Sound.validate (hp : p.Sound) (ha : p.Allocated scope unit) :
    p.validate scope unit = .ok () := by
  obtain ⟨year, next, cutoff, hyear, hnext, hcutoff, hdue⟩ := ha.due
  have hfields : ¬(p.id.val = 0 ∨ p.member.val = 0 ∨ p.scope ≠ scope ∨ p.unit ≠ unit ∨
      p.terms.dueAt < cutoff) := by
    simp [ha.id, ha.member, ha.scope, ha.unit, hdue]
  unfold MemberPayable.validate
  rw [hyear, okOr, ok_bind, hnext, okOr, ok_bind, hcutoff, okOr, ok_bind]
  refine bind_eq_ok.mpr ⟨⟨⟩, refuseIf_eq_ok.mpr hfields, ?_⟩
  cases hpayment : p.payment with
  | none => rfl
  | some payment =>
    refine bind_eq_ok.mpr ⟨⟨⟩, mapError_eq_ok.mpr (hp.valid payment hpayment).validate, ?_⟩
    exact refuseIf_eq_ok.mpr (not_not_intro (ha.scope ▸ ha.unit ▸ hp.pays payment hpayment))

theorem new_eq_ok {id : AllocationId} {member : MemberId} {distribution : AnnualDistributionId}
    {amount : Money} {terms : DistributionTerms} {correction : Option FinancialEventId}
    (h : MemberPayable.new id member distribution amount terms scope unit correction = .ok p) :
    p = ⟨id, member, distribution, amount, terms, scope, unit, none, correction⟩ ∧
      p.Allocated scope unit ∧ p.Sound := by
  simp only [MemberPayable.new, bind_eq_ok, Except.ok.injEq] at h
  obtain ⟨⟨⟩, hvalid, rfl⟩ := h
  exact ⟨rfl, validate_eq_ok hvalid, ⟨by simp, by simp⟩⟩

/-! ### Steps -/

/-- The attempts made so far. -/
def attempts (p : MemberPayable) : List Attempt := (p.payment.map PaymentExecution.attempts).getD []

/-- A new attempt, after attempts that are neither open nor successful. -/
structure Opens (p p' : MemberPayable) (operation : PaymentOperation) : Prop where
  fixed : p.Fixed p'
  unpaid : p.outstanding = p.amount
  outstanding : p'.outstanding = p.amount
  attempts : p'.attempts = p.attempts ++ [⟨operation, .pending⟩]
  unsuccessful : ∀ a ∈ p.attempts, a.state.isUnsuccessful = true

omit [Crypto] in
theorem outstanding_of_payment {payment : PaymentExecution} (h : p.payment = some payment) :
    p.outstanding = if payment.state.isSettled then .zero else p.amount := by
  simp [outstanding, h]

/-- A preparation changes nothing, or opens an attempt. -/
theorem prepare_eq_ok (hp : p.Sound) (h : p.prepare bank now = .ok (p', operation)) :
    p'.Sound ∧ (p' = p ∨ ∃ o, operation = some o ∧ p.Opens p' o) := by
  simp only [prepare, bind_eq_ok, refuseIf_eq_ok, exists_const] at h
  obtain ⟨-, -, h⟩ := h
  cases hpayment : p.payment with
  | none =>
    simp only [hpayment] at h
    split_ifs at h with hzero
    · cases h
      exact ⟨hp, .inl rfl⟩
    · simp only [bind_eq_ok, mapError_eq_ok, Except.ok.injEq, Prod.mk.injEq] at h
      obtain ⟨payment, hnew, rfl, rfl⟩ := h
      have hattempts := (PaymentExecution.new_eq_ok hnew).2.1
      have hlast := @PaymentExecution.last_of_concat _ [] _ hattempts
      refine ⟨⟨?_, ?_⟩, .inr ⟨_, rfl, .paying p _, ?_, ?_, ?_, ?_⟩⟩
      · rintro _ ⟨⟩
        exact PaymentExecution.new_valid hnew
      · rintro _ ⟨⟩
        rw [PaymentExecution.current, hlast]
        exact ⟨rfl, rfl, rfl, rfl⟩
      · simp [outstanding, hpayment]
      · rw [outstanding_of_payment rfl, PaymentExecution.state, hlast]
        rfl
      · simp [attempts, hpayment, hattempts]
      · simp [attempts, hpayment]
  | some payment =>
    simp only [hpayment, bind_eq_ok, refuseIf_eq_ok, exists_const] at h
    obtain ⟨-, h⟩ := h
    cases hstate : payment.state with
    | pending | settled e =>
      simp only [hstate] at h
      cases h
      exact ⟨hp, .inl rfl⟩
    | voided e => simp [hstate] at h
    | reversed e e' => simp [hstate] at h
    | failed e =>
      simp only [hstate, bind_eq_ok, mapError_eq_ok, Except.ok.injEq, Prod.mk.injEq] at h
      obtain ⟨⟨next, o⟩, hretry, rfl, rfl⟩ := h
      obtain ⟨hfailed, -, -, -, hattempts, -⟩ := PaymentExecution.retry_eq_ok hretry
      obtain ⟨hcurrent, hpending, ho⟩ := PaymentExecution.retry_current hretry
      have hvalid := hp.valid payment hpayment
      refine ⟨⟨?_, ?_⟩, .inr ⟨o, rfl, .paying p _, ?_, ?_, ?_, ?_⟩⟩
      · rintro _ ⟨⟩
        exact PaymentExecution.retry_valid hvalid hretry
      · rintro _ ⟨⟩
        obtain ⟨hscope, hunit, hamount, hkind⟩ := hp.pays payment hpayment
        rw [hcurrent, ho]
        exact ⟨hscope, hunit, hamount, hkind⟩
      · rw [outstanding_of_payment hpayment, hstate]
        rfl
      · rw [outstanding_of_payment rfl, hpending]
        rfl
      · simp [attempts, hpayment, hattempts]
      · intro a ha
        simp only [attempts, hpayment, Option.map_some, Option.getD_some] at ha
        rw [← List.dropLast_append_getLast payment.nonempty, List.mem_append, List.mem_singleton] at ha
        rcases ha with ha | rfl
        · exact hvalid.unsuccessful a ha
        · exact hfailed

/-- What a receipt moves between the payable and the processor. -/
inductive Moves (p p' : MemberPayable) : LedgerBatch → Prop
  | paid : p.outstanding = p.amount → p'.outstanding = .zero →
      Moves p p' ((∅ : LedgerBatch).transfer (.memberPayable p.id) .processorClearing p.amount)
  | returned : p.outstanding = .zero → p'.outstanding = p.amount →
      Moves p p' ((∅ : LedgerBatch).transfer .processorClearing (.memberPayable p.id) p.amount)
  | nothing : p'.outstanding = p.outstanding → Moves p p' ∅

omit [Crypto] in
/-- What is outstanding follows the payable's account. -/
theorem Moves.owed (h : p.Moves p' batch) :
    (p'.outstanding.units : ℤ) = p.outstanding.units + batch.net (.memberPayable p.id) := by
  cases h with
  | paid hbefore hafter => simp [hbefore, hafter]
  | returned hbefore hafter => simp [hbefore, hafter]
  | nothing hsame => simp [hsame]

omit [Crypto] in
theorem Moves.others (h : p.Moves p' batch) {a : Account} (hpayable : a ≠ .memberPayable p.id)
    (hprocessor : a ≠ .processorClearing) : batch.net a = 0 := by
  cases h with
  | paid => simp [hpayable.symm, hprocessor.symm]
  | returned => simp [hpayable.symm, hprocessor.symm]
  | nothing => rfl

theorem recordReceipt_eq_ok (hp : p.Sound) (h : p.recordReceipt receipt key = .ok (p', batch)) :
    p'.Sound ∧ p.Fixed p' ∧ p.Moves p' batch := by
  simp only [recordReceipt, bind_eq_ok, okOr_eq_ok, mapError_eq_ok, Except.ok.injEq,
    Prod.mk.injEq] at h
  obtain ⟨payment, hpayment, ⟨next, change⟩, hrecord, rfl, hbatch⟩ := h
  obtain ⟨hcurrent, hchange⟩ := PaymentExecution.record_current hrecord
  refine ⟨⟨?_, ?_⟩, .paying p _, ?_⟩
  · rintro _ ⟨⟩
    exact PaymentExecution.record_valid (hp.valid payment hpayment) hrecord
  · rintro _ ⟨⟩
    rw [hcurrent]
    exact hp.pays payment hpayment
  · have hbefore := outstanding_of_payment hpayment
    have hafter : ({p with payment := some next} : MemberPayable).outstanding =
        if next.state.isSettled then .zero else p.amount := outstanding_of_payment rfl
    subst hbatch
    rcases hchange with ⟨rfl, hs, hs'⟩ | ⟨rfl, hs, hs'⟩ | ⟨rfl, hs⟩
    · exact .paid (by simp [hbefore, hs]) (by simp [hafter, hs'])
    · exact .returned (by simp [hbefore, hs]) (by simp [hafter, hs'])
    · exact .nothing (by rw [hafter, hbefore, hs])

end
end MemberPayable

/-! ### The books of one payable -/

inductive PayableCall
  | prepare (bank : VerifiedBankAccount) (now : CanonicalTime)
  | recordReceipt (receipt : SignedPaymentEvidence) (key : Bytes32)
  deriving DecidableEq

/-- A payable and everything its receipts have posted. -/
structure PayableBooks where
  payable : MemberPayable
  posted : List (Entry Account)

namespace PayableBooks

def settled (b : PayableBooks) : ℕ := outflow b.posted (.memberPayable b.payable.id)

def reversed (b : PayableBooks) : ℕ := inflow b.posted (.memberPayable b.payable.id)

section
variable [Crypto] {b b' : PayableBooks} {amount : Money}

def call (b : PayableBooks) : PayableCall → Except ProgramError PayableBooks
  | .prepare bank now => do
    let (payable, _) ← b.payable.prepare bank now
    .ok {b with payable}
  | .recordReceipt receipt key => do
    let (payable, batch) ← b.payable.recordReceipt receipt key
    .ok ⟨payable, b.posted ++ batch.entries⟩

def calls (b : PayableBooks) (cs : List PayableCall) : PayableBooks := Machine.run call b cs

/-- What the books of an allocation keep. -/
structure Kept (amount : Money) (b : PayableBooks) : Prop where
  sound : b.payable.Sound
  allocated : b.payable.amount = amount
  settled : b.settled + b.payable.outstanding.units = b.reversed + amount.units
  whole : b.payable.outstanding = .zero ∨ b.payable.outstanding = amount
  restricted : net b.posted .restrictedMemberFunds = 0

theorem Kept.prepare {bank : VerifiedBankAccount} {now : CanonicalTime} (hb : b.Kept amount)
    (h : b.call (.prepare bank now) = .ok b') : b'.Kept amount := by
  obtain ⟨⟨payable, operation⟩, hprepare, h⟩ := bind_eq_ok.mp h
  cases h
  obtain ⟨hsound, rfl | ⟨o, -, hopens⟩⟩ := MemberPayable.prepare_eq_ok hb.sound hprepare
  · exact hb
  have hamount : payable.outstanding = amount := hopens.outstanding.trans hb.allocated
  have hsettled := hb.settled
  rw [hopens.unpaid, hb.allocated] at hsettled
  refine ⟨hsound, hopens.fixed.amount.trans hb.allocated, ?_, .inr hamount, hb.restricted⟩
  simp only [PayableBooks.settled, reversed, hopens.fixed.id, hamount] at hsettled ⊢
  omega

theorem Kept.recordReceipt {receipt : SignedPaymentEvidence} {key : Bytes32} (hb : b.Kept amount)
    (h : b.call (.recordReceipt receipt key) = .ok b') : b'.Kept amount := by
  obtain ⟨⟨payable, batch⟩, hrecord, h⟩ := bind_eq_ok.mp h
  cases h
  obtain ⟨hsound, hfixed, hmoves⟩ := MemberPayable.recordReceipt_eq_ok hb.sound hrecord
  have hamount := hfixed.amount.trans hb.allocated
  have hsettled := hb.settled
  have hrestricted := hb.restricted
  simp only [PayableBooks.settled, reversed] at hsettled
  cases hmoves with
  | paid hbefore hafter =>
    rw [hbefore, hb.allocated] at hsettled
    refine ⟨hsound, hamount, ?_, .inl hafter, ?_⟩
    · simp only [PayableBooks.settled, reversed, hfixed.id, hafter, outflow_append, inflow_append,
        LedgerBatch.outflow_transfer, LedgerBatch.inflow_transfer, hb.allocated]
      simp
      omega
    · simp only [net, outflow_append, inflow_append, LedgerBatch.outflow_transfer,
        LedgerBatch.inflow_transfer] at hrestricted ⊢
      simpa using hrestricted
  | returned hbefore hafter =>
    rw [hbefore] at hsettled
    refine ⟨hsound, hamount, ?_, .inr (hafter.trans hb.allocated), ?_⟩
    · simp only [PayableBooks.settled, reversed, hfixed.id, hafter, outflow_append, inflow_append,
        LedgerBatch.outflow_transfer, LedgerBatch.inflow_transfer, hb.allocated]
      simp at hsettled ⊢
      omega
    · simp only [net, outflow_append, inflow_append, LedgerBatch.outflow_transfer,
        LedgerBatch.inflow_transfer] at hrestricted ⊢
      simpa using hrestricted
  | nothing hsame =>
    refine ⟨hsound, hamount, ?_, hsame ▸ hb.whole, by simpa using hrestricted⟩
    simpa [PayableBooks.settled, reversed, hfixed.id, hsame] using hsettled

theorem Kept.calls (hb : b.Kept amount) (cs : List PayableCall) : (b.calls cs).Kept amount :=
  Machine.run_preserves (fun _ c _ hb h => by
    cases c with
    | prepare bank now => exact hb.prepare h
    | recordReceipt receipt key => exact hb.recordReceipt h) hb cs

end

/-! ### The allocation of 1970, prepared and paid -/

namespace Example
open RequestBooks

def bank : VerifiedBankAccount where
  evidence := ⟨exampleScope, ⟨1⟩, ⟨1⟩, Vector.replicate 32 9, ⟨1⟩, 1, []⟩
  authority := Vector.replicate 32 8
  identified := by constructor <;> decide

/-- Due at the end of the year. -/
def terms : DistributionTerms := ⟨⟨1⟩, ⟨12000⟩, ⟨31536000000⟩, PolicyVersion.first_ne_zero, by decide⟩

def payable : MemberPayable where
  id := ⟨1⟩
  member := ⟨1⟩
  distribution := ⟨1970⟩
  amount := ⟨3233⟩
  terms := terms
  scope := exampleScope
  unit := ⟨1⟩
  payment := none
  correction := none

def payoutHash : Bytes32 :=
  #v[153, 23, 90, 160, 70, 226, 186, 198, 34, 160, 203, 95, 211, 59, 38, 134, 71, 232, 198, 142,
     92, 108, 145, 213, 188, 2, 79, 173, 149, 157, 228, 239]

def digest : Bytes32 :=
  #v[242, 9, 23, 120, 163, 205, 201, 67, 106, 82, 142, 178, 249, 174, 159, 238, 121, 235, 104, 174,
     86, 101, 127, 226, 27, 84, 58, 143, 46, 158, 42, 25]

def payout : PaymentOperation where
  scope := exampleScope
  id := ⟨203493144298146810460214271016821270150⟩
  kind := .memberPayout ⟨1⟩
  amount := ⟨3233⟩
  unit := ⟨1⟩
  destination := Vector.replicate 32 9

def receipt : SignedPaymentEvidence where
  evidence := ⟨⟨5⟩, payout.id, digest, .settled⟩
  signature :=
    [97, 178, 97, 254, 239, 234, 94, 200, 238, 56, 242, 89, 51, 101, 171, 215, 15, 180, 116, 75,
     165, 96, 146, 226, 18, 113, 179, 47, 245, 186, 206, 61, 122, 229, 92, 127, 103, 251, 167, 202,
     180, 55, 233, 98, 255, 43, 154, 28, 85, 13, 121, 11, 221, 105, 245, 224, 16, 88, 221, 13, 30,
     99, 149, 14]

/-- The hashes and the signature of the example, and no others. -/
@[reducible] def crypto : Crypto where
  sha256 bytes :=
    if bytes = payoutBytes exampleScope ⟨1⟩ 0 then payoutHash
    else if bytes = payout.digestBytes then digest
    else zero32
  validKey key := key = exampleKey
  verifyStrict key message signature := key = exampleKey ∧
    message = receipt.evidence.signingBytes ∧ signature = receipt.signature

def paid : List PayableCall :=
  [.prepare bank ⟨31536000000⟩, .recordReceipt receipt exampleKey, .recordReceipt receipt exampleKey]

end Example

end PayableBooks
end CsMail
