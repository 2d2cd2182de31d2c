import CsMail.Billing.AccountProofs

/-! Where the payment operations of an account are directed.

A purchase opens a fresh operation, directed to the bank account in force; a retry repeats
the operation that failed, with the destination embedded in it. So an operation keeps its
destination for good, and a newly issued one follows the bank account in force unless it
is a retry after the account was rebound (`Unmoved`). -/
namespace CsMail
open Library

/-- The identifier of the attempt after the last one. -/
def ServiceContract.nextAttempt [Crypto] (c : ServiceContract) : PaymentOperationId :=
  operationId c.collection.current.scope (byteString "service-attempt") c.id.val
    (Fin.ofNat (2 ^ 128) c.collection.attemptCount)

/-- The operation that another attempt would be. -/
def ServiceContract.nextOperation [Crypto] (c : ServiceContract) : PaymentOperation :=
  {c.collection.current with id := c.nextAttempt}

/-- The last attempt definitively failed, and another may follow it. -/
def ServiceContract.Retryable [Crypto] (c : ServiceContract) : Prop :=
  c.collection.state.isUnsuccessful = true ∧ c.collection.operation c.nextAttempt = none ∧
    c.nextOperation.validate = .ok ()

theorem ServiceContract.retry_eq_ok_iff [Crypto] {c c' : ServiceContract} {o : PaymentOperation} :
    c.retry = .ok (c', o) ↔ c.Retryable ∧ o = c.nextOperation ∧ c' = {c with collection :=
      ⟨c.collection.attempts ++ [⟨c.nextOperation, .pending⟩], c.collection.events, by simp⟩} := by
  simp only [retry, PaymentExecution.retry, bind_eq_ok, mapError_eq_ok, refuseIf_eq_ok, exists_const, not_or,
    Bool.not_eq_false, Bool.not_eq_true, Option.isSome_eq_false_iff, Option.isNone_iff_eq_none, Except.ok.injEq,
    Prod.mk.injEq]
  constructor
  · rintro ⟨_, ⟨⟨hfailed, hfresh⟩, ⟨⟩, hvalid, rfl⟩, rfl, rfl⟩
    exact ⟨⟨hfailed, hfresh, hvalid⟩, rfl, rfl⟩
  · rintro ⟨⟨hfailed, hfresh, hvalid⟩, rfl, rfl⟩
    exact ⟨_, ⟨⟨hfailed, hfresh⟩, ⟨⟩, hvalid, rfl⟩, rfl, rfl⟩

theorem ServiceContract.record_operations [Crypto] {c c' : ServiceContract} {signed : SignedPaymentEvidence}
    {time : CanonicalTime} {batch : LedgerBatch} (h : c.record signed time = .ok (c', batch)) :
    c'.collection.attempts.map (·.operation) = c.collection.attempts.map (·.operation) := by
  simp only [record, bind_eq_ok, mapError_eq_ok] at h
  obtain ⟨⟨⟩, -, ⟨collection, change⟩, hrecord, h⟩ := h
  have hsame := PaymentExecution.record_operations hrecord
  dsimp only at h
  split at h <;> cases h <;> exact hsame

namespace BillingAccount

/-- The bank account in force. -/
def bankToken (a : BillingAccount) : Bytes32 := a.bank.evidence.bankToken

/-- The operations of a contract, in the order in which they were issued. -/
def operations (a : BillingAccount) (id : ServiceContractId) : List PaymentOperation :=
  ((a.contracts.get? id).map fun c => c.collection.attempts.map (·.operation)).getD []

theorem operations_of_held {a : BillingAccount} {id : ServiceContractId} {c : ServiceContract}
    (hc : a.contracts.get? id = some c) : a.operations id = c.collection.attempts.map (·.operation) := by
  rw [operations, hc]
  rfl

theorem operations_insert {a : BillingAccount} (bank : VerifiedBankAccount) (revision : U64)
    (id : ServiceContractId) (c : ServiceContract) (k : ServiceContractId) :
    (⟨bank, revision, a.contracts.insert id c⟩ : BillingAccount).operations k =
      if k = id then c.collection.attempts.map (·.operation) else a.operations k := by
  rw [operations, SortedMap.get?_insert]
  split_ifs with heq
  · rfl
  · rfl

/-- What is issued between two moments goes to the bank account in force at the second. -/
def Directs (a a' : BillingAccount) : Prop :=
  ∀ id issued, a'.operations id = a.operations id ++ issued → ∀ o ∈ issued, o.destination = a'.bankToken

/-- What a call issues. -/
inductive Issues [Crypto] (a a' : BillingAccount) : BillingCall → Prop
  | nothing {call : BillingCall} : (∀ id, a'.operations id = a.operations id) → a.Issues a' call
  | purchased (offer : ServiceOffer) (processorKey : Bytes32) : a'.bank = a.bank →
      a.operations (a.contractId offer) = [] →
      (∀ id, a'.operations id = a.operations id ++ if id = a.contractId offer then [a.capture offer] else []) →
      a.Issues a' (.purchase offer processorKey)
  | retried (id : ServiceContractId) (c : ServiceContract) : a.contracts.get? id = some c → c.Retryable →
      Checked.succ a.revision ≠ none → a'.bank = a.bank →
      (∀ k, a'.operations k = a.operations k ++ if k = id then [c.nextOperation] else []) →
      a.Issues a' (.retryCollection id)

section
variable [Crypto] {a a' : BillingAccount}

theorem purchase_issues {offer : ServiceOffer} {processorKey : Bytes32} {id : ServiceContractId}
    (h : (purchase offer processorKey).on a = (.ok id, a')) : a.Issues a' (.purchase offer processorKey) := by
  unfold purchase at h
  simp only [InPlace.on_bind, InPlace.on_read, InPlace.on_lift] at h
  obtain ⟨_, _, ⟨rfl, rfl⟩, _, _, ⟨-, rfl⟩, h⟩ := h
  cases hfound : a.contracts.get? (a.contractId offer) with
  | some old =>
    simp only [hfound, InPlace.on_bind, InPlace.on_lift, InPlace.on_pure] at h
    obtain ⟨_, _, ⟨-, rfl⟩, -, rfl⟩ := h
    exact .nothing fun _ => rfl
  | none =>
    simp only [hfound, InPlace.on_bind, InPlace.on_lift, InPlace.on_modify, InPlace.on_pure, mapError_eq_ok,
      bump_eq_ok] at h
    obtain ⟨_, _, ⟨-, rfl⟩, collection, _, ⟨hnew, rfl⟩, _, _, ⟨revision, -, rfl⟩, _, _, rfl, -, rfl⟩ := h
    obtain ⟨-, hattempts, -⟩ := PaymentExecution.new_eq_ok hnew
    refine .purchased offer processorKey rfl (by rw [operations, hfound]; rfl) fun id => ?_
    rw [operations_insert]
    split_ifs with heq
    · rw [heq, operations, hfound, hattempts]
      rfl
    · exact (List.append_nil _).symm

theorem retryCollection_eq_ok {id : ServiceContractId} {o : PaymentOperation} :
    (retryCollection id).on a = (.ok o, a') ↔ ∃ c revision, a.contracts.get? id = some c ∧ c.Retryable ∧
      Checked.succ a.revision = some revision ∧ o = c.nextOperation ∧ a' = ⟨a.bank, revision,
        a.contracts.insert id {c with collection :=
          ⟨c.collection.attempts ++ [⟨c.nextOperation, .pending⟩], c.collection.events, by simp⟩}⟩ := by
  unfold retryCollection
  simp only [InPlace.on_bind, InPlace.on_read, InPlace.on_lift, InPlace.on_modify, InPlace.on_pure, okOr_eq_ok,
    bump_eq_ok]
  constructor
  · rintro ⟨_, _, ⟨rfl, rfl⟩, c, _, ⟨hc, rfl⟩, ⟨c', o'⟩, _, ⟨hretry, rfl⟩, _, _, ⟨revision, hrevision, rfl⟩,
      _, _, rfl, rfl, rfl⟩
    obtain ⟨hretryable, ho, hc'⟩ := ServiceContract.retry_eq_ok_iff.mp hretry
    rw [hc']
    exact ⟨c, revision, hc, hretryable, hrevision, ho, rfl⟩
  · rintro ⟨c, revision, hc, hretryable, hrevision, rfl, rfl⟩
    exact ⟨a, a, ⟨rfl, rfl⟩, c, a, ⟨hc, rfl⟩, (_, _), a,
      ⟨ServiceContract.retry_eq_ok_iff.mpr ⟨hretryable, rfl, rfl⟩, rfl⟩, ⟨⟩, _, ⟨revision, hrevision, rfl⟩,
      ⟨⟩, _, rfl, rfl, rfl⟩

theorem recordCollection_operations {id : ServiceContractId} {receipt : SignedPaymentEvidence}
    {time : CanonicalTime} {batch : LedgerBatch} (h : (recordCollection id receipt time).on a = (.ok batch, a'))
    (k : ServiceContractId) : a'.operations k = a.operations k := by
  unfold recordCollection at h
  simp only [InPlace.on_bind, InPlace.on_read, InPlace.on_lift, okOr_eq_ok] at h
  obtain ⟨_, _, ⟨rfl, rfl⟩, old, _, ⟨hold, rfl⟩, ⟨contract, batch'⟩, _, ⟨hrecord, rfl⟩, h⟩ := h
  by_cases hsame : contract = old
  · rw [if_neg (not_not.mpr hsame), InPlace.on_pure] at h
    rw [← h.2]
  · rw [if_pos hsame] at h
    simp only [InPlace.on_bind, InPlace.on_modify, InPlace.on_pure, bump_eq_ok] at h
    obtain ⟨_, _, ⟨revision, -, rfl⟩, _, _, rfl, -, rfl⟩ := h
    rw [operations_insert]
    split_ifs with heq
    · rw [heq, operations_of_held hold]
      exact ServiceContract.record_operations hrecord
    · rfl

variable [Json]

/-- An accepted call issues at most one operation, and every issued operation stays. -/
theorem call_issues {call : BillingCall} {posted : List (ServiceContractId × Transfer)}
    (h : call.method.on a = (.ok posted, a')) : a.Issues a' call := by
  cases call with
  | purchase offer processorKey =>
    simp only [BillingCall.method, InPlace.on_bind, InPlace.on_pure] at h
    obtain ⟨_, _, hcall, -, rfl⟩ := h
    exact purchase_issues hcall
  | retryCollection id =>
    simp only [BillingCall.method, InPlace.on_bind, InPlace.on_pure] at h
    obtain ⟨_, _, hcall, -, rfl⟩ := h
    obtain ⟨c, revision, hc, hretryable, hrevision, -, rfl⟩ := retryCollection_eq_ok.mp hcall
    refine .retried id c hc hretryable (by rw [hrevision]; exact Option.some_ne_none _) rfl fun k => ?_
    rw [operations_insert]
    split_ifs with heq
    · rw [heq, operations_of_held hc, List.map_append]
      rfl
    · exact (List.append_nil _).symm
  | recordCollection id receipt time =>
    simp only [BillingCall.method, InPlace.on_bind, InPlace.on_pure] at h
    obtain ⟨_, _, hcall, -, rfl⟩ := h
    exact .nothing (recordCollection_operations hcall)
  | rebindBank evidence authority =>
    simp only [BillingCall.method, InPlace.on_bind, InPlace.on_lift, InPlace.on_pure] at h
    obtain ⟨bank, _, ⟨-, rfl⟩, _, _, hcall, -, rfl⟩ := h
    obtain ⟨-, -, -, -, -, revision, -, rfl⟩ := rebindBank_eq_ok hcall
    exact .nothing fun _ => rfl

theorem after_issues (a : BillingAccount) (call : BillingCall) : a.Issues (a.after [call]) call := by
  show a.Issues (call.method.on a).2 call
  rcases hcall : call.method.on a with ⟨e | posted, a'⟩
  · rw [method_atomic call a e a' hcall]
    exact .nothing fun _ => rfl
  · exact call_issues hcall

theorem after_retry (a : BillingAccount) (id : ServiceContractId) :
    a.after [.retryCollection id] = ((retryCollection id).on a).2 := by
  show (InPlace.on (do let _ ← retryCollection id; pure []) a).2 = _
  rw [InPlace.on_bind_eq]
  rcases (retryCollection id).on a with ⟨e | o, a'⟩ <;> rfl

/-- If the call retries a collection, the failed operation was directed to the bank account
now in force. -/
def Unmoved (a : BillingAccount) (call : BillingCall) : Prop :=
  ∀ id c, call = .retryCollection id → a.contracts.get? id = some c → c.Retryable →
    Checked.succ a.revision ≠ none → c.collection.current.destination = a.bankToken

/-- A call directs what it issues to the bank account in force, unless it retries a
collection directed to another one. -/
theorem directs_iff (a : BillingAccount) (call : BillingCall) : a.Directs (a.after [call]) ↔ a.Unmoved call := by
  constructor
  · rintro hdirects id c rfl hc hretryable hrevision
    obtain ⟨revision, hrevision⟩ := Option.ne_none_iff_exists'.mp hrevision
    have hcall := retryCollection_eq_ok.mpr ⟨c, revision, hc, hretryable, hrevision, rfl, rfl⟩
    rw [after_retry, hcall] at hdirects
    refine hdirects id [c.nextOperation] ?_ c.nextOperation (List.mem_singleton_self _)
    rw [operations_insert, if_pos rfl, operations_of_held hc, List.map_append]
    rfl
  · intro hunmoved id issued hissued o ho
    cases after_issues a call with
    | nothing hsame =>
      rw [hsame] at hissued
      rw [List.self_eq_append_right.mp hissued] at ho
      cases ho
    | purchased offer processorKey hbank hnew hoperations =>
      rw [hoperations, List.append_cancel_left_eq] at hissued
      rw [← hissued] at ho
      split_ifs at ho with heq
      · rw [List.mem_singleton.mp ho, bankToken, hbank]
        rfl
      · cases ho
    | retried k c hc hretryable hrevision hbank hoperations =>
      rw [hoperations, List.append_cancel_left_eq] at hissued
      rw [← hissued] at ho
      split_ifs at ho with heq
      · rw [List.mem_singleton.mp ho, bankToken, hbank]
        exact hunmoved k c rfl hc hretryable hrevision
      · cases ho

omit [Json] in
theorem Issues.kept {call : BillingCall} (h : a.Issues a' call) (id : ServiceContractId) :
    a.operations id <+: a'.operations id := by
  cases h with
  | nothing hsame => rw [hsame]
  | purchased offer processorKey hbank hnew hoperations =>
    rw [hoperations]
    exact List.prefix_append ..
  | retried k c hc hretryable hrevision hbank hoperations =>
    rw [hoperations]
    exact List.prefix_append ..

theorem after_kept (start : BillingAccount) (calls : List BillingCall) (id : ServiceContractId) :
    start.operations id <+: (start.after calls).operations id := by
  induction calls generalizing start with
  | nil => exact List.prefix_rfl
  | cons call rest ih =>
    show start.operations id <+: ((start.after [call]).after rest).operations id
    exact ((after_issues start call).kept id).trans (ih _)

/-- An operation of a contract bought during the calls is directed to the bank account in
force at its purchase. -/
theorem bought_under {start : BillingAccount} {id : ServiceContractId} (hnone : start.operations id = [])
    (calls : List BillingCall) : ∀ o ∈ (start.after calls).operations id, ∃ earlier offer processorKey later,
      calls = earlier ++ .purchase offer processorKey :: later ∧ (start.after earlier).operations id = [] ∧
      (start.after earlier).contractId offer = id ∧ o.destination = (start.after earlier).bankToken := by
  induction calls using List.reverseRecOn with
  | nil =>
    intro o ho
    rw [show start.after [] = start from rfl, hnone] at ho
    cases ho
  | append_singleton calls call ih =>
    intro o ho
    rw [after_append] at ho
    have hearlier : ∀ o' ∈ (start.after calls).operations id, o.destination = o'.destination →
        ∃ earlier offer processorKey later, calls ++ [call] = earlier ++ .purchase offer processorKey :: later ∧
          (start.after earlier).operations id = [] ∧ (start.after earlier).contractId offer = id ∧
          o.destination = (start.after earlier).bankToken := by
      intro o' ho' hsame
      obtain ⟨earlier, offer, processorKey, later, rfl, hempty, hid, hdestination⟩ := ih o' ho'
      refine ⟨earlier, offer, processorKey, later ++ [call], ?_, hempty, hid, hsame.trans hdestination⟩
      rw [List.append_assoc, List.cons_append]
    cases after_issues (start.after calls) call with
    | nothing hsame =>
      rw [hsame] at ho
      exact hearlier o ho rfl
    | purchased offer processorKey hbank hnew hoperations =>
      rw [hoperations] at ho
      rcases List.mem_append.mp ho with hold | hissued
      · exact hearlier o hold rfl
      · split_ifs at hissued with heq
        · rw [List.mem_singleton.mp hissued]
          exact ⟨calls, offer, processorKey, [], rfl, heq ▸ hnew, heq.symm, rfl⟩
        · cases hissued
    | retried k c hc hretryable hrevision hbank hoperations =>
      rw [hoperations] at ho
      rcases List.mem_append.mp ho with hold | hissued
      · exact hearlier o hold rfl
      · split_ifs at hissued with heq
        · have hnext : o = c.nextOperation := List.mem_singleton.mp hissued
          refine hearlier c.collection.current ?_ (by rw [hnext]; rfl)
          rw [heq, operations_of_held hc]
          exact List.mem_map_of_mem (List.getLast_mem c.collection.nonempty)
        · cases hissued

/-- **Where operations are directed.** Over every sequence of calls on any account,
refused calls included: an issued operation stays, with its destination; those of a contract
are directed to the bank account in force when it was bought; and a call directs what it
issues to the bank account in force exactly if it is not a retry of a collection directed
to another one. -/
theorem collections_directed (start : BillingAccount) (calls : List BillingCall) :
    (∀ id, start.operations id <+: (start.after calls).operations id) ∧
    (∀ id, start.operations id = [] → ∀ o ∈ (start.after calls).operations id,
      ∃ earlier offer processorKey later, calls = earlier ++ .purchase offer processorKey :: later ∧
        (start.after earlier).operations id = [] ∧ (start.after earlier).contractId offer = id ∧
        o.destination = (start.after earlier).bankToken) ∧
    (∀ earlier call later, calls = earlier ++ call :: later →
      ((start.after earlier).Directs (start.after (earlier ++ [call])) ↔ (start.after earlier).Unmoved call)) ∧
    ((∀ earlier call later, calls = earlier ++ call :: later → (start.after earlier).Unmoved call) →
      ∀ earlier call later, calls = earlier ++ call :: later →
        (start.after earlier).Directs (start.after (earlier ++ [call]))) := by
  have hstep : ∀ earlier call,
      (start.after earlier).Directs (start.after (earlier ++ [call])) ↔ (start.after earlier).Unmoved call := by
    intro earlier call
    rw [after_append]
    exact directs_iff (start.after earlier) call
  refine ⟨after_kept start calls, fun id hnone => bought_under hnone calls, fun earlier call later _ =>
    hstep earlier call, fun hunmoved earlier call later hsplit => ?_⟩
  exact (hstep earlier call).mpr (hunmoved earlier call later hsplit)

end

namespace Rebound

@[reducible] def crypto : Crypto :=
  ⟨fun bytes => Vector.replicate 32 (UInt8.ofNat (1 + bytes.length)), fun _ => true, fun _ _ _ => true⟩

def contract : ServiceContractId := @contractId crypto (new Example.bank) Example.offer

/-- The bank account that replaces the first one. -/
def evidence : BankVerification := {Example.evidence with bankToken := Vector.replicate 32 9, version := 2}

def failed : SignedPaymentEvidence :=
  let o := @capture crypto (new Example.bank) Example.offer
  ⟨⟨⟨1⟩, o.id, @PaymentOperation.digest crypto o, .failed⟩, List.replicate 64 0⟩

/-- A purchase whose collection fails, before the bank account is replaced. -/
def calls : List BillingCall := [
  .purchase Example.offer Example.hash,
  .recordCollection contract failed ⟨1700000000001⟩,
  .rebindBank evidence zero32]

end Rebound

/-- A retry after the bank account was replaced goes to the replaced one. -/
theorem not_directed : ¬ ∀ (start : BillingAccount) (calls earlier : List BillingCall) (call : BillingCall)
    (later : List BillingCall), calls = earlier ++ call :: later →
      (@after Rebound.crypto Example.json start earlier).Directs
        (@after Rebound.crypto Example.json start (earlier ++ [call])) := by
  intro h
  have hretry := h (new Example.bank) (Rebound.calls ++ [.retryCollection Rebound.contract]) Rebound.calls
    (.retryCollection Rebound.contract) [] rfl Rebound.contract
    [((@after Rebound.crypto Example.json (new Example.bank)
      (Rebound.calls ++ [.retryCollection Rebound.contract])).operations Rebound.contract).getLast
        (by decide +kernel)] (by decide +kernel) _ (List.mem_singleton_self _)
  exact absurd hretry (by decide +kernel)

end BillingAccount

end CsMail
