import CsMail.Billing.Account
import CsMail.Billing.ServiceProofs
import Mathlib.Data.List.Pairwise

/-! Coverage and collection over the life of a billing account.

Every accepted call is one of four happenings (`Happens`): nothing, another bank account, a
contract bought, a contract continued. From any account that can be read back, every run
keeps it so, and the postings of a run are the history its contracts tell. -/
namespace CsMail
open Library

/-! ### Periods side by side -/

namespace BillingAccount

theorem overlaps_eq_false {p q : ServicePeriod} : overlaps p q = false ↔ p.ends ≤ q.start ∨ q.ends ≤ p.start := by
  rw [overlaps, decide_eq_false_iff_not, not_and_or, not_lt, not_lt, or_comm]

theorem overlaps_comm (p q : ServicePeriod) : overlaps p q = overlaps q p := by
  simp only [overlaps, and_comm]

/-- Sorted periods are crowded unless each ends before the later ones begin. -/
theorem crowded_eq_false {periods : List ServicePeriod} :
    crowded periods = false ↔ periods.Pairwise fun p q => p.ends ≤ q.start := by
  induction periods with
  | nil => simp [crowded]
  | cons p rest ih =>
    cases rest with
    | nil => simp [crowded]
    | cons q rest =>
      rw [crowded, Bool.or_eq_false_iff, ih, decide_eq_false_iff_not, not_lt, List.pairwise_cons (a := p)]
      refine and_congr_left fun hrest => ?_
      constructor
      · intro hpq r hr
        rcases List.mem_cons.mp hr with rfl | hr
        · exact hpq
        · exact hpq.trans (q.start_lt_ends.le.trans ((List.pairwise_cons.mp hrest).1 r hr))
      · exact fun h => h q (List.mem_cons_self ..)

/-- Whichever way the periods are sorted, they are crowded exactly when two of them overlap. -/
theorem crowded_sorted_eq_false {periods sorted : List ServicePeriod} (hperm : sorted.Perm periods)
    (hsorted : sorted.Pairwise fun p q => p.start ≤ q.start) :
    crowded sorted = false ↔ periods.Pairwise fun p q => overlaps p q = false := by
  have hsymm : ∀ {p q : ServicePeriod}, overlaps p q = false → overlaps q p = false :=
    fun {p q} h => (overlaps_comm q p).trans h
  rw [crowded_eq_false, ← hperm.pairwise_iff hsymm]
  refine ⟨fun h => h.imp fun hpq => overlaps_eq_false.mpr (.inl hpq), fun h => ?_⟩
  refine (hsorted.and h).imp fun {p q} hpq => ?_
  rcases overlaps_eq_false.mp hpq.2 with hends | hends
  · exact hends
  · exact absurd (hends.trans hpq.1) (not_le.mpr q.start_lt_ends)

section
variable [Crypto] [Json] {a a' : BillingAccount}

/-! ### What every account keeps -/

structure Sound (a : BillingAccount) : Prop where
  bank : a.bank.evidence.verify BankVerification.bytes a.bank.authority = .ok a.bank
  filed : ∀ id c, a.contracts.get? id = some c → c.id = id
  contract : ∀ id c, a.contracts.get? id = some c → c.Sound
  scope : ∀ id c, a.contracts.get? id = some c → c.collection.current.scope = a.scope
  unit : ∀ id c, a.contracts.get? id = some c → c.collection.current.unit = a.unit
  apart : ∀ id c id' c', a.contracts.get? id = some c → a.contracts.get? id' = some c' → id ≠ id' →
    overlaps c.offer.period c'.offer.period = false

/-- The account and each of its contracts is read back from its stored form. -/
structure Readable (a : BillingAccount) : Prop where
  account : tryFrom a.toStored = .ok a
  contracts : ∀ id c, a.contracts.get? id = some c → ServiceContract.tryFrom c.toStored = .ok c

theorem readable_iff : a.Readable ↔ a.Sound := by
  have hcheck : (∀ e ∈ a.contracts.entries, checkContract a.bank.evidence e = .ok ()) ↔
      ∀ id c, a.contracts.get? id = some c → id = c.id ∧ c.collection.current.scope = a.scope ∧
        c.collection.current.unit = a.unit := by
    simp only [checkContract, refuseIf_eq_ok, not_or, ne_eq, not_not, Prod.forall, SortedMap.mem_entries]
    rfl
  have hperiods : crowded ((a.contracts.values.map (·.offer.period)).insertionSort
      fun p q => p.start ≤ q.start) = false ↔ ∀ id c id' c', a.contracts.get? id = some c →
        a.contracts.get? id' = some c' → id ≠ id' → overlaps c.offer.period c'.offer.period = false := by
    rw [crowded_sorted_eq_false (List.perm_insertionSort ..) (List.pairwise_insertionSort ..),
      SortedMap.values, List.map_map, List.pairwise_map]
    constructor
    · intro h id c id' c' hc hc' hne
      have hsymm : Std.Symm fun e e' : ServiceContractId × ServiceContract =>
        overlaps e.2.offer.period e'.2.offer.period = false := ⟨fun _ _ h => (overlaps_comm _ _).trans h⟩
      have hall : a.contracts.entries.Pairwise fun e e' => overlaps e.2.offer.period e'.2.offer.period = false := h
      exact hall.forall (SortedMap.mem_entries.mpr hc) (SortedMap.mem_entries.mpr hc')
        fun heq => hne (congrArg Prod.fst heq)
    · intro h
      refine a.contracts.sorted.imp_of_mem fun {e e'} he he' hlt => ?_
      exact h e.1 e.2 e'.1 e'.2 (SortedMap.mem_entries.mp he) (SortedMap.mem_entries.mp he') hlt.ne
  have htry : tryFrom a.toStored = .ok a ↔
      a.bank.evidence.verify BankVerification.bytes a.bank.authority = .ok a.bank ∧
      (∀ e ∈ a.contracts.entries, checkContract a.bank.evidence e = .ok ()) ∧
      crowded ((a.contracts.values.map (·.offer.period)).insertionSort fun p q => p.start ≤ q.start) = false := by
    simp only [tryFrom, toStored, bind_eq_ok, mapError_eq_ok, Except.ok.injEq]
    constructor
    · rintro ⟨bank, hbank, ⟨⟩, hall, ⟨⟩, hnot, heq⟩
      have hsame : bank = a.bank := congrArg BillingAccount.bank heq
      exact ⟨hsame ▸ hbank, forM_eq_ok.mp hall, Bool.eq_false_of_not_eq_true (refuseIf_eq_ok.mp hnot)⟩
    · rintro ⟨hbank, hall, hnot⟩
      exact ⟨a.bank, hbank, ⟨⟩, forM_eq_ok.mpr hall, ⟨⟩, refuseIf_eq_ok.mpr (by simp [hnot]), rfl⟩
  constructor
  · rintro ⟨haccount, hcontracts⟩
    obtain ⟨hbank, hall, hnot⟩ := htry.mp haccount
    have hall := hcheck.mp hall
    refine ⟨hbank, fun id c hc => (hall id c hc).1.symm, fun id c hc => ?_, fun id c hc => (hall id c hc).2.1,
      fun id c hc => (hall id c hc).2.2, hperiods.mp hnot⟩
    have hread := hcontracts id c hc
    simp only [ServiceContract.tryFrom, bind_eq_ok, Except.ok.injEq] at hread
    obtain ⟨_, -, _, -, ⟨⟩, hvalidate, hresult⟩ := hread
    rw [hresult] at hvalidate
    exact ServiceContract.validate_eq_ok.mp hvalidate
  · intro h
    refine ⟨htry.mpr ⟨h.bank, hcheck.mpr fun id c hc => ?_, hperiods.mpr h.apart⟩,
      fun id c hc => (h.contract id c hc).tryFrom⟩
    exact ⟨(h.filed id c hc).symm, h.scope id c hc, h.unit id c hc⟩

theorem new_sound {bank : VerifiedBankAccount}
    (h : bank.evidence.verify BankVerification.bytes bank.authority = .ok bank) : (new bank).Sound :=
  ⟨h, nofun, nofun, nofun, nofun, nofun⟩

end

end BillingAccount

/-! ### Calls -/

/-- A call of one of the operations; a bank account arrives as the evidence to verify. -/
inductive BillingCall
  | purchase (offer : ServiceOffer) (processorKey : Bytes32)
  | retryCollection (id : ServiceContractId)
  | recordCollection (id : ServiceContractId) (receipt : SignedPaymentEvidence) (time : CanonicalTime)
  | rebindBank (evidence : BankVerification) (authority : Bytes32)

namespace BillingCall
variable [Crypto] [Json]
/-- The call, with the transfers it posts for a contract. -/
def method : BillingCall → BillingAccount.Method (List (ServiceContractId × Transfer))
  | purchase offer processorKey => do
    let _ ← BillingAccount.purchase offer processorKey
    pure []
  | retryCollection id => do
    let _ ← BillingAccount.retryCollection id
    pure []
  | recordCollection id receipt time => do
    let batch ← BillingAccount.recordCollection id receipt time
    pure (batch.transfers.map (id, ·))
  | rebindBank evidence authority => do
    let bank ← (evidence.verify BankVerification.bytes authority).mapError BillingError.payment
    BillingAccount.rebindBank bank
    pure []

end BillingCall

namespace BillingAccount

/-- What a call does, and what it posts for which contract. -/
inductive Happens [Crypto] [Json] (a : BillingAccount) :
    BillingAccount → List (ServiceContractId × Transfer) → Prop
  | same : a.Happens a []
  | rebound (bank : VerifiedBankAccount) (revision : U64) : Checked.succ a.revision = some revision →
      bank.evidence.verify BankVerification.bytes bank.authority = .ok bank →
      bank.evidence.scope = a.scope → bank.evidence.unit = a.unit → bank ≠ a.bank →
      a.Happens ⟨bank, revision, a.contracts⟩ []
  | purchased (contract : ServiceContract) (revision : U64) : Checked.succ a.revision = some revision →
      a.contracts.get? contract.id = none → contract.Sound → contract.told = [] →
      contract.collection.current.scope = a.scope → contract.collection.current.unit = a.unit →
      (∀ id c, a.contracts.get? id = some c → overlaps c.offer.period contract.offer.period = false) →
      a.Happens ⟨a.bank, revision, a.contracts.insert contract.id contract⟩ []
  | continued {id : ServiceContractId} (old contract : ServiceContract) (posted : List Transfer)
      (revision : U64) : Checked.succ a.revision = some revision → a.contracts.get? id = some old →
      contract.Sound → old.Continues contract → contract ≠ old → contract.told = old.told ++ posted →
      a.Happens ⟨a.bank, revision, a.contracts.insert id contract⟩ (posted.map (id, ·))

/-! ### Refusals -/

theorem bump_atomic : bump.Atomic := .get fun _ => .check fun _ _ => (InPlace.Assigns.assign_last _).atomic

theorem bump_eq_ok {a a' : BillingAccount} {u : Unit} : bump.on a = (.ok u, a') ↔
    ∃ revision, Checked.succ a.revision = some revision ∧ a' = {a with revision} := by
  unfold bump
  simp only [InPlace.on_bind, InPlace.on_read, InPlace.on_lift, InPlace.on_modify, okOr_eq_ok]
  constructor
  · rintro ⟨_, _, ⟨rfl, rfl⟩, revision, _, ⟨hrevision, rfl⟩, rfl⟩
    exact ⟨revision, hrevision, rfl⟩
  · rintro ⟨revision, hrevision, rfl⟩
    exact ⟨a, a, ⟨rfl, rfl⟩, revision, a, ⟨hrevision, rfl⟩, rfl⟩

section
variable [Crypto]

theorem purchase_atomic (offer : ServiceOffer) (processorKey : Bytes32) :
    (purchase offer processorKey).Atomic := by
  refine .get fun a => .check fun _ _ => ?_
  cases a.contracts.get? (a.contractId offer) with
  | some old => exact .check fun _ _ => (InPlace.Assigns.pure _).atomic
  | none =>
    exact .check fun _ _ => .check fun _ _ => .bind bump_atomic fun _ => .assign _ (.pure _)

theorem retryCollection_atomic (id : ServiceContractId) : (retryCollection id).Atomic :=
  .get fun _ => .check fun _ _ => .check fun _ _ => .bind bump_atomic fun _ => .assign _ (.pure _)

theorem recordCollection_atomic (id : ServiceContractId) (receipt : SignedPaymentEvidence)
    (time : CanonicalTime) : (recordCollection id receipt time).Atomic := by
  refine .get fun _ => .check fun _ _ => .check fun _ _ => .ite (fun _ => ?_) fun _ => ?_
  · exact .bind bump_atomic fun _ => .assign _ (.pure _)
  · exact (InPlace.Assigns.pure _).atomic

theorem method_atomic [Json] (call : BillingCall) : call.method.Atomic := by
  cases call with
  | purchase offer processorKey => exact .bind (purchase_atomic offer processorKey) fun _ => .pure _
  | retryCollection id => exact .bind (retryCollection_atomic id) fun _ => .pure _
  | recordCollection id receipt time => exact .bind (recordCollection_atomic id receipt time) fun _ => .pure _
  | rebindBank evidence authority =>
    refine .check fun bank _ => .bind ?_ fun _ => .pure _
    exact .get fun _ => .check fun _ _ => .bind bump_atomic fun _ => .assign_last _

/-! ### What a call does -/

section
variable [Json] {a a' : BillingAccount}

theorem purchase_happens {offer : ServiceOffer} {processorKey : Bytes32} {id : ServiceContractId}
    (h : (purchase offer processorKey).on a = (.ok id, a')) : a.Happens a' [] := by
  unfold purchase at h
  simp only [InPlace.on_bind, InPlace.on_read, InPlace.on_lift, refuseIf_eq_ok, not_or, ne_eq, not_not] at h
  obtain ⟨_, _, ⟨rfl, rfl⟩, _, _, ⟨⟨hunit, hprocessor⟩, rfl⟩, h⟩ := h
  cases hfound : a.contracts.get? (a.contractId offer) with
  | some old =>
    simp only [hfound, InPlace.on_bind, InPlace.on_lift, InPlace.on_pure] at h
    obtain ⟨_, _, ⟨-, rfl⟩, -, rfl⟩ := h
    exact .same
  | none =>
    simp only [hfound, InPlace.on_bind, InPlace.on_lift, InPlace.on_modify, InPlace.on_pure, refuseIf_eq_ok,
      mapError_eq_ok, bump_eq_ok] at h
    obtain ⟨_, _, ⟨hfree, rfl⟩, collection, _, ⟨hnew, rfl⟩, _, _, ⟨revision, hrevision, rfl⟩, _, _, rfl, -,
      rfl⟩ := h
    obtain ⟨hvalid, hattempts, -⟩ := PaymentExecution.new_eq_ok hnew
    have hlast : collection.last = ⟨a.capture offer, .pending⟩ :=
      PaymentExecution.last_of_concat (hattempts.trans (List.nil_append _).symm)
    have hcurrent : collection.current = a.capture offer := congrArg Attempt.operation hlast
    have hstate : collection.state = .pending := congrArg Attempt.state hlast
    have hnamed : (a.contractId offer).val ≠ 0 := by
      simp only [PaymentOperation.validate, bind_eq_ok, refuseIf_eq_ok, not_or] at hvalid
      exact hvalid.choose_spec.1.1
    refine .purchased ⟨a.contractId offer, offer, processorKey, collection, .unfunded⟩ revision hrevision hfound
      ⟨PaymentExecution.new_valid hnew, hnamed, ?_, hprocessor, ?_, ?_, ?_,
        ServiceContract.agrees_eq_true.mpr (.inl ⟨.inl hstate, rfl⟩)⟩ rfl ?_ ?_ fun id c hc => ?_
    · rw [PaymentExecution.operation_ne_none, hattempts]
      exact List.mem_singleton_self _
    · rw [hcurrent]
      rfl
    · rw [hcurrent]
      rfl
    · rw [hcurrent]
      exact hunit.symm
    · rw [hcurrent]
      rfl
    · rw [hcurrent]
      rfl
    · rw [List.any_eq_true] at hfree
      exact Bool.eq_false_of_not_eq_true fun hover => hfree ⟨c, SortedMap.mem_values.mpr ⟨id, hc⟩, hover⟩

theorem retryCollection_happens (ha : a.Sound) {id : ServiceContractId} {operation : PaymentOperation}
    (h : (retryCollection id).on a = (.ok operation, a')) : a.Happens a' [] := by
  unfold retryCollection at h
  simp only [InPlace.on_bind, InPlace.on_read, InPlace.on_lift, InPlace.on_modify, InPlace.on_pure, okOr_eq_ok,
    bump_eq_ok] at h
  obtain ⟨_, _, ⟨rfl, rfl⟩, old, _, ⟨hold, rfl⟩, ⟨contract, _⟩, _, ⟨hretry, rfl⟩, _, _, ⟨revision, hrevision, rfl⟩,
    _, _, rfl, -, rfl⟩ := h
  obtain ⟨hsound, hcontinues, hne, htold⟩ := ServiceContract.retry_spec (ha.contract id old hold) hretry
  exact .continued old contract [] revision hrevision hold hsound hcontinues hne
    (htold.trans (List.append_nil _).symm)

theorem recordCollection_happens (ha : a.Sound) {id : ServiceContractId} {receipt : SignedPaymentEvidence}
    {time : CanonicalTime} {batch : LedgerBatch} (h : (recordCollection id receipt time).on a = (.ok batch, a')) :
    a.Happens a' (batch.transfers.map (id, ·)) := by
  unfold recordCollection at h
  simp only [InPlace.on_bind, InPlace.on_read, InPlace.on_lift, okOr_eq_ok] at h
  obtain ⟨_, _, ⟨rfl, rfl⟩, old, _, ⟨hold, rfl⟩, ⟨contract, batch'⟩, _, ⟨hrecord, rfl⟩, h⟩ := h
  obtain ⟨hsound, hcontinues, htold⟩ := ServiceContract.record_spec (ha.contract id old hold) hrecord
  by_cases hsame : contract = old
  · -- evidence already recorded posts nothing
    rw [if_neg (not_not.mpr hsame), InPlace.on_pure] at h
    obtain ⟨rfl, rfl⟩ := h
    have hnone : batch'.transfers = [] := by
      rw [hsame] at htold
      exact List.self_eq_append_right.mp htold
    rw [hnone]
    exact .same
  · rw [if_pos hsame] at h
    simp only [InPlace.on_bind, InPlace.on_modify, InPlace.on_pure, bump_eq_ok] at h
    obtain ⟨_, _, ⟨revision, hrevision, rfl⟩, _, _, rfl, rfl, rfl⟩ := h
    exact .continued old contract _ revision hrevision hold hsound hcontinues hsame htold

omit [Crypto] [Json] in
theorem rebindBank_eq_ok {bank : VerifiedBankAccount} {u : Unit} (h : (rebindBank bank).on a = (.ok u, a')) :
    bank.evidence.account = a.id ∧ bank.evidence.member = a.bank.evidence.member ∧ bank.evidence.scope = a.scope ∧
      bank.evidence.unit = a.unit ∧ a.bank.evidence.version < bank.evidence.version ∧
      ∃ revision, Checked.succ a.revision = some revision ∧ a' = ⟨bank, revision, a.contracts⟩ := by
  unfold rebindBank at h
  simp only [InPlace.on_bind, InPlace.on_read, InPlace.on_lift, InPlace.on_modify, refuseIf_eq_ok, not_or, ne_eq,
    not_not, not_le, bump_eq_ok] at h
  obtain ⟨_, _, ⟨rfl, rfl⟩, _, _, ⟨⟨haccount, hmember, hscope, hunit, hversion⟩, rfl⟩, _, _,
    ⟨revision, hrevision, rfl⟩, rfl⟩ := h
  exact ⟨haccount.symm, hmember.symm, hscope.symm, hunit.symm, hversion, revision, hrevision, rfl⟩

theorem verify_again {evidence : BankVerification} {authority : Bytes32} {bank : VerifiedBankAccount}
    (h : evidence.verify BankVerification.bytes authority = .ok bank) :
    bank.evidence.verify BankVerification.bytes bank.authority = .ok bank := by
  have hbank : bank.evidence = evidence ∧ bank.authority = authority := by
    unfold BankVerification.verify at h
    split_ifs at h
    simp only [bind_eq_ok, Except.ok.injEq] at h
    obtain ⟨_, -, _, -, _, -, _, -, rfl⟩ := h
    exact ⟨rfl, rfl⟩
  rw [hbank.1, hbank.2]
  exact h

theorem call_happens (ha : a.Sound) {call : BillingCall} {posted : List (ServiceContractId × Transfer)}
    (h : call.method.on a = (.ok posted, a')) : a.Happens a' posted := by
  cases call with
  | purchase offer processorKey =>
    simp only [BillingCall.method, InPlace.on_bind, InPlace.on_pure] at h
    obtain ⟨_, _, hcall, rfl, rfl⟩ := h
    exact purchase_happens hcall
  | retryCollection id =>
    simp only [BillingCall.method, InPlace.on_bind, InPlace.on_pure] at h
    obtain ⟨_, _, hcall, rfl, rfl⟩ := h
    exact retryCollection_happens ha hcall
  | recordCollection id receipt time =>
    simp only [BillingCall.method, InPlace.on_bind, InPlace.on_pure] at h
    obtain ⟨_, _, hcall, rfl, rfl⟩ := h
    exact recordCollection_happens ha hcall
  | rebindBank evidence authority =>
    simp only [BillingCall.method, InPlace.on_bind, InPlace.on_lift, InPlace.on_pure, mapError_eq_ok] at h
    obtain ⟨bank, _, ⟨hverify, rfl⟩, _, _, hcall, rfl, rfl⟩ := h
    obtain ⟨-, -, hscope, hunit, hversion, revision, hrevision, rfl⟩ := rebindBank_eq_ok hcall
    refine .rebound bank revision hrevision (verify_again hverify) hscope hunit fun heq => ?_
    rw [heq] at hversion
    exact lt_irrefl _ hversion

/-! ### What every happening keeps -/

theorem Happens.sound {posted : List (ServiceContractId × Transfer)} (h : a.Happens a' posted) (ha : a.Sound) :
    a'.Sound := by
  cases h with
  | same => exact ha
  | rebound bank revision hrevision hverify hscope hunit hne =>
    exact ⟨hverify, ha.filed, ha.contract, fun id c hc => (ha.scope id c hc).trans hscope.symm,
      fun id c hc => (ha.unit id c hc).trans hunit.symm, ha.apart⟩
  | purchased contract revision hrevision hnew hsound htold hscope hunit hapart =>
    have hall : ∀ id c, (a.contracts.insert contract.id contract).get? id = some c →
        (id = contract.id ∧ c = contract) ∨ (id ≠ contract.id ∧ a.contracts.get? id = some c) := by
      intro id c hc
      rw [SortedMap.get?_insert] at hc
      split_ifs at hc with heq
      · exact .inl ⟨heq, (Option.some.inj hc).symm⟩
      · exact .inr ⟨heq, hc⟩
    refine ⟨ha.bank, fun id c hc => ?_, fun id c hc => ?_, fun id c hc => ?_, fun id c hc => ?_,
      fun id c id' c' hc hc' hne => ?_⟩
    · rcases hall id c hc with ⟨rfl, rfl⟩ | ⟨-, hc⟩
      · rfl
      · exact ha.filed id c hc
    · rcases hall id c hc with ⟨rfl, rfl⟩ | ⟨-, hc⟩
      · exact hsound
      · exact ha.contract id c hc
    · rcases hall id c hc with ⟨rfl, rfl⟩ | ⟨-, hc⟩
      · exact hscope
      · exact ha.scope id c hc
    · rcases hall id c hc with ⟨rfl, rfl⟩ | ⟨-, hc⟩
      · exact hunit
      · exact ha.unit id c hc
    · rcases hall id c hc with ⟨rfl, rfl⟩ | ⟨-, hold⟩ <;> rcases hall id' c' hc' with ⟨rfl, rfl⟩ | ⟨-, hold'⟩
      · exact absurd rfl hne
      · exact (overlaps_comm _ _).trans (hapart id' c' hold')
      · exact hapart id c hold
      · exact ha.apart id c id' c' hold hold' hne
  | @continued id₀ old contract posted revision hrevision hold hsound hcontinues hne htold =>
    -- only what a contract's successor shares with it is asked for
    have hall : ∀ id c, (a.contracts.insert id₀ contract).get? id = some c → ∃ c₀, a.contracts.get? id = some c₀ ∧
        c.Sound ∧ c.id = c₀.id ∧ c.offer = c₀.offer ∧
        c.collection.current.scope = c₀.collection.current.scope ∧
        c.collection.current.unit = c₀.collection.current.unit := by
      intro id c hc
      rw [SortedMap.get?_insert] at hc
      split_ifs at hc with heq
      · cases hc
        exact ⟨old, heq ▸ hold, hsound, hcontinues.id, hcontinues.offer, hcontinues.scope, hcontinues.unit⟩
      · exact ⟨c, hc, ha.contract id c hc, rfl, rfl, rfl, rfl⟩
    refine ⟨ha.bank, fun id c hc => ?_, fun id c hc => ?_, fun id c hc => ?_, fun id c hc => ?_,
      fun id c id' c' hc hc' hne => ?_⟩
    · obtain ⟨c₀, hc₀, -, hid, -⟩ := hall id c hc
      exact hid.trans (ha.filed id c₀ hc₀)
    · exact (hall id c hc).choose_spec.2.1
    · obtain ⟨c₀, hc₀, -, -, -, hscope, -⟩ := hall id c hc
      exact hscope.trans (ha.scope id c₀ hc₀)
    · obtain ⟨c₀, hc₀, -, -, -, -, hunit⟩ := hall id c hc
      exact hunit.trans (ha.unit id c₀ hc₀)
    · obtain ⟨c₀, hc₀, -, -, hoffer, -⟩ := hall id c hc
      obtain ⟨c₀', hc₀', -, -, hoffer', -⟩ := hall id' c' hc'
      rw [hoffer, hoffer']
      exact ha.apart id c₀ id' c₀' hc₀ hc₀' hne

/-- What the account's contract has posted, if there is one. -/
def told (a : BillingAccount) (id : ServiceContractId) : List Transfer :=
  ((a.contracts.get? id).map (·.told)).getD []

/-- The transfers posted for one contract. -/
def postedFor (id : ServiceContractId) (posted : List (ServiceContractId × Transfer)) : List Transfer :=
  (posted.filter fun p => p.1 = id).map (·.2)

omit [Crypto] [Json] in
theorem postedFor_tagged (id k : ServiceContractId) (transfers : List Transfer) :
    postedFor k (transfers.map (id, ·)) = if k = id then transfers else [] := by
  rw [postedFor, List.filter_map, List.map_map]
  split_ifs with heq
  · simp [Function.comp_def, heq]
  · simp [Function.comp_def, Ne.symm heq]

theorem Happens.told {posted : List (ServiceContractId × Transfer)} (h : a.Happens a' posted)
    (k : ServiceContractId) : a'.told k = a.told k ++ postedFor k posted := by
  cases h with
  | same => exact (List.append_nil _).symm
  | rebound bank revision hrevision hverify hscope hunit hne => exact (List.append_nil _).symm
  | purchased contract revision hrevision hnew hsound htold hscope hunit hapart =>
    refine Eq.trans ?_ (List.append_nil _).symm
    rw [BillingAccount.told, BillingAccount.told, SortedMap.get?_insert]
    split_ifs with heq
    · rw [heq, hnew]
      exact htold
    · rfl
  | @continued id old contract posted revision hrevision hold hsound hcontinues hne htold =>
    rw [postedFor_tagged, BillingAccount.told, BillingAccount.told, SortedMap.get?_insert]
    split_ifs with heq
    · rw [heq, hold]
      exact htold
    · exact (List.append_nil _).symm

/-- The revision counts the changes. -/
theorem Happens.revision {posted : List (ServiceContractId × Transfer)} (h : a.Happens a' posted) :
    a'.revision.val = a.revision.val + if a' = a then 0 else 1 := by
  have hcount : ∀ next : BillingAccount, Checked.succ a.revision = some next.revision → next ≠ a →
      next.revision.val = a.revision.val + if next = a then 0 else 1 := fun next hsucc hne => by
    rw [if_neg hne]
    exact Checked.succ_eq_some.mp hsucc
  cases h with
  | same => rw [if_pos rfl, Nat.add_zero]
  | rebound bank revision hrevision hverify hscope hunit hne =>
    exact hcount ⟨bank, revision, a.contracts⟩ hrevision fun heq => hne (congrArg BillingAccount.bank heq)
  | purchased contract revision hrevision hnew hsound htold hscope hunit hapart =>
    refine hcount ⟨a.bank, revision, a.contracts.insert contract.id contract⟩ hrevision fun heq => ?_
    have hget := congrArg (fun b : BillingAccount => b.contracts.get? contract.id) heq
    simp only [SortedMap.get?_insert_self, hnew, reduceCtorEq] at hget
  | @continued id old contract posted revision hrevision hold hsound hcontinues hne htold =>
    refine hcount ⟨a.bank, revision, a.contracts.insert id contract⟩ hrevision fun heq => ?_
    have hget := congrArg (fun b : BillingAccount => b.contracts.get? id) heq
    simp only [SortedMap.get?_insert_self, hold, Option.some.injEq] at hget
    exact hne hget

/-! ### Runs -/

/-- The account after the calls, those that were refused among them. -/
def after (start : BillingAccount) (calls : List BillingCall) : BillingAccount :=
  InPlace.calls BillingCall.method start calls

/-- Everything the calls posted. -/
def postings (start : BillingAccount) (calls : List BillingCall) : List (ServiceContractId × Transfer) :=
  (InPlace.returned BillingCall.method start calls).flatten

theorem after_append (start : BillingAccount) (calls rest : List BillingCall) :
    start.after (calls ++ rest) = (start.after calls).after rest := List.foldl_append ..

theorem calls_sound {start : BillingAccount} (h : start.Sound) (calls : List BillingCall) :
    (start.after calls).Sound ∧
      ∀ id, (start.after calls).told id = start.told id ++ postedFor id (start.postings calls) := by
  have hrun := fun id => InPlace.calls_returned (P := Sound) (T := fun a : BillingAccount => a.told id)
    (f := postedFor id) method_atomic (fun _ _ _ _ ha hcall =>
      ⟨(call_happens ha hcall).sound ha, (call_happens ha hcall).told id⟩) h calls
  refine ⟨(hrun ⟨0⟩).1, fun id => (hrun id).2.trans ?_⟩
  rw [postings, postedFor, List.filter_flatten, List.map_flatten, List.map_map]
  rfl

/-- One more call leaves the account as it is, or makes of it what a happening does. -/
theorem after_call {start : BillingAccount} (h : start.Sound) (call : BillingCall) :
    (∃ e, (call.method.on start).1 = .error e ∧ start.after [call] = start) ∨
      ∃ posted, start.Happens (start.after [call]) posted := by
  rcases hcall : call.method.on start with ⟨e | posted, a'⟩
  · refine .inl ⟨e, rfl, ?_⟩
    show (call.method.on start).2 = start
    rw [hcall]
    exact method_atomic call start e a' hcall
  · refine .inr ⟨posted, ?_⟩
    show start.Happens (call.method.on start).2 posted
    rw [hcall]
    exact call_happens h hcall

/-- What a contract has posted, by the state of its collection. -/
theorem Sound.told_cases (ha : a.Sound) {id : ServiceContractId} {c : ServiceContract}
    (hc : a.contracts.get? id = some c) :
    (∃ evidence, c.collection.state = .settled evidence ∧ a.told id = [c.receipt]) ∨
    (∃ evidence reversal, c.collection.state = .reversed evidence reversal ∧ a.told id = [c.receipt, c.loss]) ∨
    (c.collection.state = .pending ∨ c.collection.state.isUnsuccessful = true) ∧ a.told id = [] := by
  have htold : a.told id = c.told := by
    rw [BillingAccount.told, hc]
    rfl
  rw [htold, ServiceContract.told]
  rcases ServiceContract.agrees_eq_true.mp (ha.contract id c hc).agrees with ⟨hstate, hsettlement⟩ |
    ⟨evidence, paid, hstate, hsettlement, -⟩ | ⟨evidence, reversal, paid, hstate, hsettlement, -⟩
  · rw [hsettlement]
    exact .inr (.inr ⟨hstate, rfl⟩)
  · rw [hsettlement]
    exact .inl ⟨evidence, hstate, rfl⟩
  · rw [hsettlement]
    exact .inr (.inl ⟨evidence, reversal, hstate, rfl⟩)

/-- A contract's history names no receipts but its own. -/
theorem Sound.told_mem (ha : a.Sound) {id : ServiceContractId} {t : Transfer} (ht : t ∈ a.told id) :
    (t.toAccount = .utilityServiceReceipts ⟨id.val⟩ ∨ t.toAccount = .processorClearing) ∧
      ∀ payment, t.fromAccount ≠ .utilityServiceReceipts payment := by
  cases hc : a.contracts.get? id with
  | none =>
    rw [BillingAccount.told, hc] at ht
    cases ht
  | some c =>
    have hpayment : c.payment = ⟨id.val⟩ := congrArg (fun k : ServiceContractId => (⟨k.val⟩ : PaymentOperationId))
      (ha.filed id c hc)
    have hin : t = c.receipt ∨ t = c.loss := by
      rcases ha.told_cases hc with ⟨_, -, htold⟩ | ⟨_, _, -, htold⟩ | ⟨-, htold⟩ <;> rw [htold] at ht <;>
        simp only [List.mem_cons, List.not_mem_nil, or_false] at ht
      · exact .inl ht
      · exact ht
    rcases hin with rfl | rfl
    · exact ⟨.inl (congrArg _ hpayment), fun payment h => by cases h⟩
    · exact ⟨.inr rfl, fun payment h => by cases h⟩

/-- **Coverage and collection.** Over every sequence of calls on an account that is read
back from its stored form, refused calls included: periods are disjoint, so one contract
at most covers an instant, and only one whose collection is settled and not reversed; the
postings of the run extend the history of each contract, which is its price received once
if it ever settled, and lost once if that was reversed, and nobody else posts to its
receipts; a refused call changes nothing, the revision counts the changes, and the account
is still read back. -/
theorem coverage_and_collection {start : BillingAccount} (hstart : start.Readable) (calls : List BillingCall) :
    (∀ id c id' c' t, (start.after calls).contracts.get? id = some c →
      (start.after calls).contracts.get? id' = some c' → c.offer.period.contains t = true →
      c'.offer.period.contains t = true → id = id') ∧
    (∀ id c id' c' t, (start.after calls).contracts.get? id = some c →
      (start.after calls).contracts.get? id' = some c' → c.covers t = true → c'.covers t = true → id = id') ∧
    (∀ id c t, (start.after calls).contracts.get? id = some c → c.covers t = true →
      ∃ evidence, c.collection.state = .settled evidence) ∧
    (∀ id, (start.after calls).told id = start.told id ++ postedFor id (start.postings calls)) ∧
    (∀ id c, (start.after calls).contracts.get? id = some c →
      (∃ evidence, c.collection.state = .settled evidence ∧ (start.after calls).told id =
        [⟨.processorClearing, .utilityServiceReceipts ⟨id.val⟩, c.offer.price⟩]) ∨
      (∃ evidence reversal, c.collection.state = .reversed evidence reversal ∧ (start.after calls).told id =
        [⟨.processorClearing, .utilityServiceReceipts ⟨id.val⟩, c.offer.price⟩,
          ⟨.corporateLossClearing, .processorClearing, c.offer.price⟩]) ∨
      (c.collection.state = .pending ∨ c.collection.state.isUnsuccessful = true) ∧
        (start.after calls).told id = []) ∧
    (∀ rest id, (start.after calls).told id <+: (start.after (calls ++ rest)).told id) ∧
    (∀ id, ∀ p ∈ start.postings calls, (p.2.toAccount = .utilityServiceReceipts ⟨id.val⟩ → p.1 = id) ∧
      ∀ payment, p.2.fromAccount ≠ .utilityServiceReceipts payment) ∧
    (∀ call, (start.after (calls ++ [call])).revision.val = (start.after calls).revision.val +
      if start.after (calls ++ [call]) = start.after calls then 0 else 1) ∧
    (∀ (call : BillingCall) e, (call.method.on (start.after calls)).1 = .error e →
      start.after (calls ++ [call]) = start.after calls) ∧
    (start.after calls).Readable := by
  have hsound := readable_iff.mp hstart
  obtain ⟨ha, htold⟩ := calls_sound hsound calls
  have hdisjoint : ∀ id c id' c' t, (start.after calls).contracts.get? id = some c →
      (start.after calls).contracts.get? id' = some c' → c.offer.period.contains t = true →
      c'.offer.period.contains t = true → id = id' := by
    intro id c id' c' t hc hc' ht ht'
    simp only [ServicePeriod.contains, decide_eq_true_eq] at ht ht'
    by_contra hne
    rcases overlaps_eq_false.mp (ha.apart id c id' c' hc hc' hne) with h | h
    · exact absurd (ht.2.trans_le (h.trans ht'.1)) (lt_irrefl t)
    · exact absurd (ht'.2.trans_le (h.trans ht.1)) (lt_irrefl t)
  refine ⟨hdisjoint, fun id c id' c' t hc hc' ht ht' => ?_, fun id c t hc ht =>
    ((ha.contract id c hc).covers ht).1, htold, fun id c hc => ?_, fun rest id => ?_, fun id p hp => ?_,
    fun call => ?_, fun call e he => ?_, readable_iff.mpr ha⟩
  · exact hdisjoint id c id' c' t hc hc' ((ha.contract id c hc).covers ht).2.1 ((ha.contract id' c' hc').covers ht').2.1
  · have hpayment : c.payment = ⟨id.val⟩ := congrArg (fun k : ServiceContractId => (⟨k.val⟩ : PaymentOperationId))
      (ha.filed id c hc)
    rw [← hpayment]
    exact ha.told_cases hc
  · rw [after_append, (calls_sound ha rest).2 id]
    exact List.prefix_append ..
  · have hin : p.2 ∈ (start.after calls).told p.1 := by
      rw [htold]
      refine List.mem_append_right _ (List.mem_map.mpr ⟨p, List.mem_filter.mpr ⟨hp, decide_eq_true rfl⟩, rfl⟩)
    obtain ⟨hto, hfrom⟩ := ha.told_mem hin
    refine ⟨fun hid => ?_, hfrom⟩
    rcases hto with hto | hto
    · rw [hto] at hid
      injection hid with hid
      injection hid with hid
      exact Ident.val_injective hid
    · rw [hto] at hid
      cases hid
  · rw [after_append]
    rcases after_call ha call with ⟨_, -, hsame⟩ | ⟨_, hhappens⟩
    · rw [hsame, if_pos rfl, Nat.add_zero]
    · exact hhappens.revision
  · rw [after_append]
    show (call.method.on (start.after calls)).2 = _
    exact method_atomic call _ e _ (Prod.ext he rfl)

end
end

namespace Example

def hash : Bytes32 := Vector.replicate 32 7

@[reducible] def crypto : Crypto := ⟨fun _ => hash, fun _ => true, fun _ _ _ => true⟩

@[reducible] def json : Json := ⟨fun _ => some [], fun _ => none⟩

def evidence : BankVerification where
  scope := ⟨Vector.replicate 32 1, ⟨2⟩, ⟨3⟩, Vector.replicate 32 4, ⟨2⟩⟩
  account := ⟨5⟩
  member := ⟨6⟩
  bankToken := Vector.replicate 32 8
  unit := ⟨1⟩
  version := 1
  signature := List.replicate 64 0

def bank : VerifiedBankAccount := ⟨evidence, zero32, ⟨by decide, by decide, by decide, by decide⟩⟩

def period : ServicePeriod where
  anchor := ⟨2024, 2, 29, .march1⟩
  start := ⟨1709164800000⟩
  ends := ⟨1740787200000⟩
  dated := by decide +kernel

def offer : ServiceOffer := ⟨⟨1⟩, period, ⟨1700000000000⟩, ⟨1200⟩, ⟨1⟩, by decide +kernel⟩

/-- The contract's identifier is its hash, as is the digest of its payment. -/
def id : ServiceContractId := ⟨firstU128 hash⟩

def receipt (event : FinancialEventId) (outcome : PaymentOutcome) : SignedPaymentEvidence :=
  ⟨⟨event, ⟨id.val⟩, hash, outcome⟩, List.replicate 64 0⟩

/-- A leap-day year is bought, paid, and the payment is reversed. -/
def calls : List BillingCall := [
  .purchase offer hash,
  .recordCollection id (receipt ⟨1⟩ .settled) ⟨1700000000001⟩,
  .recordCollection id (receipt ⟨2⟩ .reversed) ⟨1700000000002⟩]

theorem new_readable : @Readable crypto json (new bank) :=
  (@readable_iff crypto json _).mpr (@new_sound crypto json bank (by decide +kernel))

end Example

/-- In the example the price is received once and lost once, and the account is read back. -/
theorem coverage_and_collection_reversed :
    (@after Example.crypto Example.json (new Example.bank) Example.calls).told Example.id =
      [⟨.processorClearing, .utilityServiceReceipts ⟨Example.id.val⟩, ⟨1200⟩⟩,
        ⟨.corporateLossClearing, .processorClearing, ⟨1200⟩⟩] ∧
    @Readable Example.crypto Example.json (@after Example.crypto Example.json (new Example.bank) Example.calls) := by
  obtain ⟨-, -, -, -, -, -, -, -, -, hreadable⟩ :=
    @coverage_and_collection Example.crypto Example.json (new Example.bank) Example.new_readable Example.calls
  exact ⟨by decide +kernel, hreadable⟩

end BillingAccount

end CsMail
