import CsMail.Finance.RequestProofs
import CsMail.Protocol.Move
import Mathlib.Algebra.Order.Group.Int

/-! Lifecycle and money move together.

The lifecycle of a request and the settlement of its payment record are changed by
different functions. `Agreement` says how they belong together, and `Move.agreement` that
no move separates them; `Move.keeps` says that what a move posts is what it changes in
the balances the records stand for. -/
namespace CsMail
open Library Journal

/-! ### Agreement -/

/-- The settlement that goes with each lifecycle. -/
def RequestLifecycle.Agrees (f : RequestFinancials) : RequestLifecycle → Prop
  | preparingSubmission _ => f.settlement = none
  | awaitingRecipientDecision _ => f.settlement = none ∧ f.fundingFinalized = true
  | accepted _ _ _ => f.settlement = some .accepted
  | rejected _ _ => f.settlement = some .rejected
  | expired _ _ => f.settlement = some .expired
  | cancelled _ _ => f.settlement = some .cancelled

/-- The requests of a relationship and their payment records, kept in agreement. -/
structure Agreement (key : RelationshipKey) (requests : SortedMap RequestId RelationshipRequest)
    (payments : SortedMap RequestId RequestFinancials) : Prop where
  filed : ∀ id r, requests.get? id = some r → r.id = id ∧
    r.terms.relationship = key.reference ∧ r.terms.sender = key.sender ∧
    r.terms.recipient = key.recipient
  paid : ∀ id r, requests.get? id = some r → ∃ f, payments.get? id = some f ∧
    f.capture.id = r.funding ∧ f.Linked ∧ r.lifecycle.Agrees f
  owned : ∀ id, requests.get? id = none → payments.get? id = none
  single : ∀ id id' r r', requests.get? id = some r → requests.get? id' = some r' →
    r.lifecycle.isTerminal = false → r'.lifecycle.isTerminal = false → id = id'

namespace Agreement
variable {key : RelationshipKey} {requests : SortedMap RequestId RelationshipRequest}
  {payments : SortedMap RequestId RequestFinancials}

theorem empty : Agreement key ∅ ∅ where
  filed := fun _ _ hr => by simp at hr
  paid := fun _ _ hr => by simp at hr
  owned := fun _ _ => rfl
  single := fun _ _ _ _ hr => by simp at hr

/-- One request and its record move on together. -/
theorem update (h : Agreement key requests payments) {r : RelationshipRequest}
    (r' : RelationshipRequest) {f f' : RequestFinancials} {e : RequestFinancialEffects}
    (hr : requests.get? r.id = some r) (hf : payments.get? r.id = some f) (hid : r'.id = r.id)
    (hterms : r'.terms = r.terms) (hfunding : r'.funding = r.funding) (hstep : f.Step f' e)
    (hagrees : r'.lifecycle.Agrees f')
    (hopen : r'.lifecycle.isTerminal = false → r.lifecycle.isTerminal = false) :
    Agreement key (requests.insert r.id r') (payments.insert r.id f') := by
  obtain ⟨f₀, hf₀, hcapture, -⟩ := h.paid _ r hr
  cases hf.symm.trans hf₀
  constructor
  · intro id q hq
    rw [SortedMap.get?_insert] at hq
    split_ifs at hq with heq
    · cases hq
      rw [hid, hterms]
      exact ⟨heq.symm, (h.filed _ r hr).2⟩
    · exact h.filed id q hq
  · intro id q hq
    rw [SortedMap.get?_insert] at hq ⊢
    split_ifs at hq ⊢ with heq
    · cases hq
      exact ⟨f', rfl, by rw [hstep.capture, hfunding, hcapture], hstep.linked, hagrees⟩
    · exact h.paid id q hq
  · intro id hq
    rw [SortedMap.get?_insert] at hq ⊢
    split_ifs at hq ⊢ with heq
    exact h.owned id hq
  · have hbefore : ∀ id q, (requests.insert r.id r').get? id = some q →
        q.lifecycle.isTerminal = false →
        ∃ q₀, requests.get? id = some q₀ ∧ q₀.lifecycle.isTerminal = false := by
      intro id q hq hq'
      rw [SortedMap.get?_insert] at hq
      split_ifs at hq with heq
      · cases hq
        exact ⟨r, heq ▸ hr, hopen hq'⟩
      · exact ⟨q, hq, hq'⟩
    intro id id' q q' hq hq' hq₁ hq₁'
    obtain ⟨p, hp, hp₁⟩ := hbefore id q hq hq₁
    obtain ⟨p', hp', hp₁'⟩ := hbefore id' q' hq' hq₁'
    exact h.single id id' p p' hp hp' hp₁ hp₁'

end Agreement

section
variable {now : CanonicalTime} {event : EventRef} {key : RelationshipKey} {b b' : RequestBook}
  {r : RelationshipRequest}

theorem Ending.agrees {h h' : RequestHistory} {l : RequestLifecycle} {s : RequestSettlement}
    {task : ScheduleTask} {f : RequestFinancials} (hend : Ending now event h r l s h' task)
    (hs : f.settlement = some s) : l.Agrees f ∧ l.isTerminal = true := by
  cases hend <;> exact ⟨hs, rfl⟩

/-- Payment evidence about a request that stays as it is keeps the agreement. -/
theorem agrees_of_paid [Crypto] {f f' : RequestFinancials} {e : RequestFinancialEffects}
    {receipt : SignedPaymentEvidence} {l : RequestLifecycle} (hf : f.Linked)
    (hagrees : l.Agrees f) (hpaid : f.recordPayment receipt = .ok (f', e))
    (hkept : e.captureVoided = true → l.isPreparingSubmission = false) : l.Agrees f' := by
  obtain ⟨hfunded, hsame | ⟨hvoided, hunfunded, hcancelled⟩⟩ :=
    RequestFinancials.recordPayment_settlement hpaid
  · cases l <;> simp only [RequestLifecycle.Agrees, hsame.2] at hagrees ⊢
    case awaitingRecipientDecision => exact ⟨hagrees.1, hfunded hagrees.2⟩
    all_goals exact hagrees
  · have hclosed := hkept hvoided
    rcases hf.unfunded_settlement hunfunded with hs | hs <;>
      cases l <;>
        simp_all [RequestLifecycle.Agrees, RequestLifecycle.isPreparingSubmission]

/-- **Moves keep the book sound.** Lifecycle and settlement agree after every move, no
request loses its payment record, and at most one stays unresolved. -/
theorem Move.agreement [Crypto] (hs : Agreement key b.requests b.payments)
    (h : Move now event key b b') : Agreement key b'.requests b'.payments := by
  cases h with
  | kept => exact hs
  | @created r f capture contract p hnew hunpaid hclosed hfree hopen hrecord hfunding hhome hsender
      hrecipient =>
    obtain ⟨hcapture, -, hstatus, hsettlement, hrefund, -⟩ := RequestFinancials.new_eq_ok hrecord
    constructor
    · intro id q hq
      rw [SortedMap.get?_insert] at hq
      split_ifs at hq with heq
      · cases hq
        exact ⟨heq.symm, hhome, hsender, hrecipient⟩
      · exact hs.filed id q hq
    · intro id q hq
      rw [SortedMap.get?_insert] at hq ⊢
      split_ifs at hq ⊢ with heq
      · cases hq
        refine ⟨f, rfl, by rw [hcapture, hfunding], .unsettled hstatus hsettlement hrefund, ?_⟩
        rw [hopen]
        exact hsettlement
      · exact hs.paid id q hq
    · intro id hq
      rw [SortedMap.get?_insert] at hq ⊢
      split_ifs at hq ⊢ with heq
      exact hs.owned id hq
    · have hother : ∀ id q, (b.requests.insert r.id r).get? id = some q →
          q.lifecycle.isTerminal = false → id = r.id := by
        intro id q hq hq'
        rw [SortedMap.get?_insert] at hq
        split_ifs at hq with heq
        · exact heq
        · rw [hclosed q (SortedMap.mem_values.mpr ⟨id, hq⟩)] at hq'
          cases hq'
      intro id id' q q' hq hq' hq₁ hq₁'
      rw [hother id q hq hq₁, hother id' q' hq' hq₁']
  | @submitted r f p deadline h' version hr hf hopen hfunded hdeadline hcooled hhistory =>
    obtain ⟨f₀, hf₀, -, hlinked, hagrees⟩ := hs.paid _ r hr
    cases hf.symm.trans hf₀
    rw [hopen] at hagrees
    have hsame : f.Step f {} := .silent hlinked rfl rfl hlinked rfl le_rfl rfl rfl rfl
    have hnext := hs.update {r with
      lifecycle := .awaitingRecipientDecision ⟨now, deadline⟩
      version} hr hf rfl rfl rfl hsame ⟨hagrees, hfunded⟩ (fun _ => by rw [hopen]; rfl)
    rwa [SortedMap.insert_get?_self hf] at hnext
  | @ended r f f' e l s h' task version hr hf hsettle hend =>
    obtain ⟨f₀, hf₀, -, hlinked, -⟩ := hs.paid _ r hr
    cases hf.symm.trans hf₀
    obtain ⟨hsettlement, -⟩ := RequestFinancials.settle_settlement hlinked hsettle
    obtain ⟨hagrees, hterminal⟩ := hend.agrees hsettlement
    exact hs.update {r with lifecycle := l, version} hr hf rfl rfl rfl
      (RequestFinancials.settle_step hlinked hsettle) hagrees
      (fun hopen => by rw [hterminal] at hopen; cases hopen)
  | @paid id f f' e receipt hf hpaid hkept =>
    cases hr : b.requests.get? id with
    | none =>
      rw [hs.owned id hr] at hf
      cases hf
    | some r =>
      obtain ⟨f₀, hf₀, -, hlinked, hagrees⟩ := hs.paid _ r hr
      cases hf.symm.trans hf₀
      cases (hs.filed id r hr).1
      have hnext := hs.update r hr hf rfl rfl rfl
        (RequestFinancials.recordPayment_step hlinked hpaid)
        (agrees_of_paid hlinked hagrees hpaid fun hv => hkept hv r hr) id
      rwa [SortedMap.insert_get?_self hr] at hnext
  | @voided r f f' e receipt p version hr hf hopen hpaid hvoided =>
    obtain ⟨f₀, hf₀, -, hlinked, -⟩ := hs.paid _ r hr
    cases hf.symm.trans hf₀
    have hcancelled : f'.settlement = some .cancelled := by
      obtain ⟨-, hsame | hcancelled⟩ := RequestFinancials.recordPayment_settlement hpaid
      · rw [hvoided] at hsame
        cases hsame.1
      · exact hcancelled.2.2
    exact hs.update {r with lifecycle := .cancelled p event, version} hr hf rfl rfl rfl
      (RequestFinancials.recordPayment_step hlinked hpaid) hcancelled nofun

/-! ### What a move posts -/

/-- The balances of every record together. -/
def sheetOf (payments : SortedMap RequestId RequestFinancials) (a : Account) : Int :=
  payments.sumBy fun f => f.balances a

/-- A batch that carries the balances of all records before it to those after. -/
structure LedgerBatch.Keeps (batch : LedgerBatch)
    (payments payments' : SortedMap RequestId RequestFinancials) : Prop where
  balanced : batch.isBalanced = true
  funded : Funded Account.permitsNegative (sheetOf payments) batch.entries
  posted : ∀ a, sheetOf payments' a = sheetOf payments a + batch.net a

theorem LedgerBatch.Keeps.nothing {payments payments' : SortedMap RequestId RequestFinancials}
    (h : ∀ a, sheetOf payments' a = sheetOf payments a) :
    (∅ : LedgerBatch).Keeps payments payments' :=
  ⟨rfl, trivial, fun a => by rw [h, LedgerBatch.net_empty, add_zero]⟩

theorem LedgerBatch.extend_empty {batch : LedgerBatch}
    (h : ∀ t ∈ batch.transfers, t.amount.isZero = false) :
    (∅ : LedgerBatch).extend batch = batch := by
  suffices ∀ (rest : List Transfer) (b : LedgerBatch), (∀ t ∈ rest, t.amount.isZero = false) →
      rest.foldl (fun b t => b.transfer t.fromAccount t.toAccount t.amount) b =
        ⟨b.transfers ++ rest⟩ from this _ _ h
  intro rest
  induction rest with
  | nil => intro b _; simp
  | cons t rest ih =>
    intro b hrest
    rw [List.foldl_cons, ih _ fun t' ht' => hrest t' (List.mem_cons_of_mem _ ht')]
    simp [LedgerBatch.transfer, hrest t List.mem_cons_self]

/-- What one record posts, all records together post. -/
theorem RequestFinancials.Step.keeps {payments : SortedMap RequestId RequestFinancials}
    {id : RequestId} {f f' : RequestFinancials} {e : RequestFinancialEffects}
    (hf : payments.get? id = some f) (hstep : f.Step f' e) :
    ((∅ : LedgerBatch).extend e.postings).Keeps payments (payments.insert id f') := by
  obtain ⟨hmoves, hbalanced, hfunded, -, hposted⟩ := hstep.carries
  rw [LedgerBatch.extend_empty hmoves]
  refine ⟨hbalanced, hfunded.mono fun a hp => ?_, fun a => ?_⟩
  · exact SortedMap.le_sumBy hf fun f => f.balances_nonneg hp
  · have hsum := SortedMap.sumBy_insert payments id f' fun f => f.balances a
    rw [hf, Option.map_some, Option.getD_some] at hsum
    have := hposted a
    simp only [sheetOf]
    omega

/-- **Moves post what they change.** -/
theorem Move.keeps [Crypto] (hs : Agreement key b.requests b.payments) (hbatch : b.batch = ∅)
    (h : Move now event key b b') : b'.batch.Keeps b.payments b'.payments := by
  cases h with
  | kept => exact hbatch ▸ .nothing fun _ => rfl
  | @created r f capture contract p hnew hunpaid hclosed hfree hopen hrecord =>
    refine hbatch ▸ .nothing fun a => ?_
    rw [sheetOf, SortedMap.sumBy_insert_new _ _ hunpaid, RequestFinancials.new_balances hrecord,
      add_zero]
    rfl
  | submitted => exact hbatch ▸ .nothing fun _ => rfl
  | @ended r f f' e l s h' task version hr hf hsettle hend =>
    obtain ⟨f₀, hf₀, -, hlinked, -⟩ := hs.paid _ r hr
    cases hf.symm.trans hf₀
    exact hbatch ▸ (RequestFinancials.settle_step hlinked hsettle).keeps hf
  | @paid id f f' e receipt hf hpaid hkept =>
    cases hr : b.requests.get? id with
    | none =>
      rw [hs.owned id hr] at hf
      cases hf
    | some r =>
      obtain ⟨f₀, hf₀, -, hlinked, -⟩ := hs.paid _ r hr
      cases hf.symm.trans hf₀
      exact hbatch ▸ (RequestFinancials.recordPayment_step hlinked hpaid).keeps hf
  | @voided r f f' e receipt p version hr hf hopen hpaid hvoided =>
    obtain ⟨f₀, hf₀, -, hlinked, -⟩ := hs.paid _ r hr
    cases hf.symm.trans hf₀
    exact hbatch ▸ (RequestFinancials.recordPayment_step hlinked hpaid).keeps hf

end

end CsMail
