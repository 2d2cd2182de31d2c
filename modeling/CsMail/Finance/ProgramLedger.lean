import CsMail.Finance.ProgramRecords

/-! The member program and its ledger, over whole runs.

The accounts hold what the records say (`Reconciled`): every operation that changes a
lot, a payable or a year posts the change, and the others post nothing. -/
namespace CsMail
open Library

namespace FinancialProgram

/-- What a lot keeps in its own account. -/
def pendingUnits (lot : ForfeitureLot) : ℕ :=
  if lot.lifecycle.isAssessed then 0 else lot.source.amount.units

def pendingOf (p : FinancialProgram) (id : PaymentOperationId) : ℕ :=
  ((p.records.funding.get? id).map pendingUnits).getD 0

def owedOn (p : FinancialProgram) (id : AllocationId) : ℕ :=
  ((p.records.payables.get? id).map fun payable => payable.outstanding.units).getD 0

/-- The distribution of the latest finalized year. -/
def latest (p : FinancialProgram) : Option AnnualAllocation :=
  p.records.annualAllocations.values.getLast?

/-- What the latest distribution left over. -/
def carriedOver (p : FinancialProgram) : ℕ := (p.latest.map fun a => a.remainder.units).getD 0

def corporateShares (p : FinancialProgram) : ℕ :=
  p.records.annualAllocations.sumBy fun a => a.corporateShare.units

/-- The accounts hold what the records say. -/
structure Reconciled (p : FinancialProgram) : Prop where
  conserved : p.ledger.view.Conserved
  pending : ∀ id, p.ledger.view.signedBalance (.pendingForfeiture id) = p.pendingOf id
  owed : ∀ id, p.ledger.view.signedBalance (.memberPayable id) = p.owedOn id
  carried : p.ledger.view.signedBalance .restrictedMemberFunds = p.carriedOver
  corporate : p.ledger.view.signedBalance .corporatePoolRevenue = p.corporateShares

theorem reconciled_new (scope : FinancialScope) (unit : SettlementUnit) :
    (new scope unit).Reconciled where
  conserved := LedgerState.new_conserved unit
  pending _ := rfl
  owed _ := rfl
  carried := rfl
  corporate := rfl

section
variable {p p' next : FinancialProgram} {now : CanonicalTime} {c : Call}

theorem pending_putLot (id i : PaymentOperationId) (lot : ForfeitureLot) :
    (p.putLot id lot).pendingOf i = if i = id then pendingUnits lot else p.pendingOf i := by
  show (((p.records.funding.insert id lot).get? i).map pendingUnits).getD 0 = _
  rw [SortedMap.get?_insert]
  by_cases heq : i = id <;> simp [heq, pendingOf]

theorem owed_putPayable (id i : AllocationId) (payable : MemberPayable) :
    (p.putPayable id payable).owedOn i = if i = id then payable.outstanding.units else p.owedOn i := by
  show (((p.records.payables.insert id payable).get? i).map _).getD 0 = _
  rw [SortedMap.get?_insert]
  by_cases heq : i = id <;> simp [heq, owedOn]

@[simp] theorem pendingOf_posted (cause : FinancialEventId) (batch : LedgerBatch) (view : LedgerView)
    (id : PaymentOperationId) : (p.posted now cause batch view).pendingOf id = p.pendingOf id := rfl

@[simp] theorem owedOn_posted (cause : FinancialEventId) (batch : LedgerBatch) (view : LedgerView)
    (id : AllocationId) : (p.posted now cause batch view).owedOn id = p.owedOn id := rfl

/-- A change of the records that the ledger follows. -/
theorem Reconciled.post {view : LedgerView} {batch : LedgerBatch} (h : p.Reconciled)
    (hview : p.ledger.view.apply batch = .ok view) (hledger : p'.ledger.view = view)
    (hpending : ∀ id, (p'.pendingOf id : ℤ) = p.pendingOf id + batch.net (.pendingForfeiture id))
    (howed : ∀ id, (p'.owedOn id : ℤ) = p.owedOn id + batch.net (.memberPayable id))
    (hcarried : (p'.carriedOver : ℤ) = p.carriedOver + batch.net .restrictedMemberFunds)
    (hcorporate : (p'.corporateShares : ℤ) = p.corporateShares + batch.net .corporatePoolRevenue) :
    p'.Reconciled := by
  obtain ⟨-, hconserved, -, -, hnet⟩ := LedgerView.apply_spec hview
  subst hledger
  refine ⟨hconserved, fun id => ?_, fun id => ?_, ?_, ?_⟩
  · rw [hnet, h.pending, hpending]
  · rw [hnet, h.owed, howed]
  · rw [hnet, h.carried, hcarried]
  · rw [hnet, h.corporate, hcorporate]

/-- A change of the records that posts nothing. -/
theorem Reconciled.keep (h : p.Reconciled) (hledger : p'.ledger = p.ledger)
    (hpending : ∀ id, p'.pendingOf id = p.pendingOf id) (howed : ∀ id, p'.owedOn id = p.owedOn id)
    (hallocations : p'.records.annualAllocations = p.records.annualAllocations) : p'.Reconciled := by
  refine ⟨hledger ▸ h.conserved, fun id => ?_, fun id => ?_, ?_, ?_⟩
  · rw [hledger, h.pending, hpending]
  · rw [hledger, h.owed, howed]
  · have hcarried : p'.carriedOver = p.carriedOver := by rw [carriedOver, latest, hallocations]; rfl
    rw [hledger, h.carried, hcarried]
  · have hshares : p'.corporateShares = p.corporateShares := by rw [corporateShares, hallocations]; rfl
    rw [hledger, h.corporate, hshares]

theorem LotChange.pendingUnits {id : PaymentOperationId} {lot lot' : ForfeitureLot}
    (h : LotChange now id lot c lot') : pendingUnits lot' = pendingUnits lot := by
  cases h with
  | held held hnot | reversed hnot => simp [FinancialProgram.pendingUnits, hnot]
  | cleared evidence mature hheld hnot => simp [FinancialProgram.pendingUnits, hnot]
  | kept => rfl

/-! ### A finalized year -/

/-- What is available is the members' to share, or is left over. -/
theorem available_shared (d : Distribution) (members : List MemberId) :
    d.available.units = (d.each members).units * members.length + (d.remainder members).units := by
  unfold Distribution.each Distribution.remainder
  split_ifs with hnone
  · simp [hnone]
  · rw [Money.units_div, Money.units_mod, Nat.mul_comm]
    exact (Nat.div_add_mod _ _).symm

theorem each_nobody (d : Distribution) {members : List MemberId} (h : members.length = 0) :
    (d.each members).units = 0 := by
  rw [Distribution.each, if_pos h]
  rfl

theorem remainder_lt (d : Distribution) {members : List MemberId} (h : 0 < members.length) :
    (d.remainder members).units < members.length := by
  rw [Distribution.remainder, if_neg h.ne']
  exact Nat.mod_lt _ h

variable [Crypto]

theorem Reconciled.distributed {id : AnnualDistributionId} {schedule : AnnualDistributionSchedule}
    {d : Distribution} {view : LedgerView} (h : p.Reconciled) (hfiled : p.Filed) (hclosed : p.Closed)
    (hd : p.Distributes id schedule now d) (hview : p.ledger.view.apply d.allocated.batch = .ok view) :
    (p.distributed id schedule now d view).Reconciled := by
  have hassesses := hfiled.assesses hd
  have hallocates := hfiled.allocates hd
  have hlast : ∀ i a, p.records.annualAllocations.get? i = some a → i < id :=
    fun i a ha => hclosed.before hd ha
  refine h.post hview rfl (fun i => ?_) (fun i => ?_) ?_ ?_
  · rw [hallocates.others _ (by simp) (by simp), hassesses.pending]
    show ((((d.assessed.funding.get? i).map pendingUnits).getD 0 : ℕ) : ℤ) = _
    rw [hassesses.marked]
    split_ifs with hmem
    · obtain ⟨lot, clearance, hlot, hcleared⟩ := hassesses.cleared i hmem
      simp [hlot, pendingOf, lotAmount, pendingUnits, hcleared,
        ForfeitureLot.assessedIn_lifecycle hcleared]
    · simp [pendingOf]
  · show ((((d.allocated.payables.get? i).map _).getD 0 : ℕ) : ℤ) = _
    rcases hallocates.payables i with ⟨hsame, hnet⟩ | hgranted
    · rw [hsame, hnet, hassesses.payable, add_zero]
      rfl
    · obtain ⟨m, -, -, payable, hnew, hheld⟩ := hgranted.granted
      obtain ⟨rfl, -, -⟩ := MemberPayable.new_eq_ok hnew
      rw [hheld, hgranted.owed, hassesses.payable]
      simp [owedOn, hgranted.fresh, MemberPayable.outstanding]
  · have hnew : (p.distributed id schedule now d view).carriedOver =
        (d.remainder (p.qualifyingMembers schedule)).units := by
      rw [carriedOver, latest]
      show ((p.records.annualAllocations.insert id _).values.getLast?.map _).getD 0 = _
      rw [SortedMap.values_insert_last _ hlast, List.getLast?_concat]
      rfl
    have havailable := Money.checkedAdd_eq_some.mp hd.available
    have hbalance := h.conserved.units_balance (a := .restrictedMemberFunds) rfl
    have hshared := available_shared d (p.qualifyingMembers schedule)
    rw [hallocates.restricted, hassesses.restricted, hnew, ← h.carried]
    omega
  · rw [hallocates.others _ (by simp) (by simp), hassesses.corporate]
    show (((p.records.annualAllocations.insert id _).sumBy _ : ℕ) : ℤ) = _
    rw [SortedMap.sumBy_insert_new _ _ hd.unfinished]
    push_cast
    rfl

theorem Reconciled.event (h : p.Reconciled) (hfiled : p.Filed) (hclosed : p.Closed)
    (he : p.Event now c next) : next.Reconciled := by
  cases he with
  | @forfeited source view htakes hview =>
    refine h.post hview rfl (fun i => ?_) (fun i => ?_) ?_ ?_
    · have hbefore : p.pendingOf source.id = 0 := by simp [pendingOf, htakes.fresh]
      rw [pending_putLot, pendingOf_posted]
      by_cases heq : i = source.id
      · subst heq
        simp [forfeitureBatch, pendingUnits, hbefore]
      · simp [forfeitureBatch, heq, Ne.symm heq]
    · simp [forfeitureBatch]
      rfl
    · simp [forfeitureBatch]
      rfl
    · simp [forfeitureBatch]
      rfl
  | @reviewed _ id lot lot' hlot hchange =>
    refine h.keep rfl (fun i => ?_) (fun _ => rfl) rfl
    rw [pending_putLot]
    split_ifs with heq
    · rw [hchange.pendingUnits, heq, pendingOf, hlot]
      rfl
    · rfl
  | enrolled | changed | published => exact h.keep rfl (fun _ => rfl) (fun _ => rfl) rfl
  | finalized hd hview => exact h.distributed hfiled hclosed hd hview
  | @prepared id bank payable payable' operation hpayable hprepare =>
    refine h.keep rfl (fun _ => rfl) (fun i => ?_) rfl
    have hsame : payable'.outstanding = payable.outstanding := by
      obtain ⟨-, rfl | ⟨o, -, hopens⟩⟩ :=
        MemberPayable.prepare_eq_ok (hfiled.payables _ _ hpayable).2.1 hprepare
      · rfl
      · rw [hopens.outstanding, hopens.unpaid]
    rw [owed_putPayable]
    split_ifs with heq
    · rw [hsame, heq, owedOn, hpayable]
      rfl
    · rfl
  | @noted id receipt key payable payable' batch hpayable hrecord hempty =>
    obtain ⟨hid, hsound, -⟩ := hfiled.payables _ _ hpayable
    obtain ⟨-, -, hmoves⟩ := MemberPayable.recordReceipt_eq_ok hsound hrecord
    refine h.keep rfl (fun _ => rfl) (fun i => ?_) rfl
    have hnet : ∀ a, batch.net a = 0 := fun a => by
      rw [LedgerBatch.net, LedgerBatch.entries, hempty]
      rfl
    have howed := hmoves.owed
    rw [hnet] at howed
    rw [owed_putPayable]
    split_ifs with heq
    · rw [heq, owedOn, hpayable]
      show payable'.outstanding.units = payable.outstanding.units
      omega
    · rfl
  | @confirmed id receipt key payable payable' batch view hpayable hrecord hview =>
    obtain ⟨hid, hsound, -⟩ := hfiled.payables _ _ hpayable
    obtain ⟨-, -, hmoves⟩ := MemberPayable.recordReceipt_eq_ok hsound hrecord
    refine h.post hview rfl (fun i => ?_) (fun i => ?_) ?_ ?_
    · rw [hmoves.others (by simp) (by simp), add_zero]
      rfl
    · rw [owedOn_posted, owed_putPayable]
      split_ifs with heq
      · rw [heq, ← hid, hmoves.owed, hid, owedOn, hpayable]
        rfl
      · rw [hmoves.others (by simpa [hid] using heq) (by simp), add_zero]
    · rw [hmoves.others (by simp) (by simp), add_zero]
      rfl
    · rw [hmoves.others (by simp) (by simp), add_zero]
      rfl
  | @corrected event member distribution amount reason payable view hcorrects hview =>
    obtain ⟨a, -, hnew⟩ := hcorrects.granted
    obtain ⟨rfl, -, -⟩ := MemberPayable.new_eq_ok hnew
    refine h.post hview rfl (fun i => ?_) (fun i => ?_) ?_ ?_
    · simp [correctionBatch]
      rfl
    · have hbefore : p.owedOn (correctionId p.scope p.unit event) = 0 := by
        simp [owedOn, hcorrects.fresh]
      rw [owedOn_posted, owed_putPayable]
      by_cases heq : i = correctionId p.scope p.unit event
      · subst heq
        simp [correctionBatch, hbefore, MemberPayable.outstanding]
      · simp [correctionBatch, heq, Ne.symm heq]
    · simp [correctionBatch]
      rfl
    · simp [correctionBatch]
      rfl

/-! ### Runs -/

/-- What every run keeps. -/
structure Kept (p : FinancialProgram) : Prop where
  filed : p.Filed
  closed : p.Closed
  reconciled : p.Reconciled

theorem Kept.happens {c : Call × CanonicalTime} (h : p.Kept) (hp : p.Happens c p') : p'.Kept := by
  have hclosed := h.closed.happens h.filed hp
  obtain ⟨hlast, next, revision, he, -, rfl⟩ := hp
  have hfiled := h.filed.event he
  have hreconciled := h.reconciled.event h.filed h.closed he
  exact ⟨⟨hfiled.funding, hfiled.members, hfiled.schedules, hfiled.allocations, hfiled.payables⟩, hclosed,
    ⟨hreconciled.conserved, hreconciled.pending, hreconciled.owed, hreconciled.carried,
      hreconciled.corporate⟩⟩

theorem kept_new (scope : FinancialScope) (unit : SettlementUnit) : (new scope unit).Kept :=
  ⟨filed_new scope unit, closed_new scope unit, reconciled_new scope unit⟩

theorem Kept.calls (h : p.Kept) (cs : List (Call × CanonicalTime)) : (p.calls cs).Kept :=
  Machine.run_preserves (step_preserves fun _ _ _ hp hhappens => hp.happens hhappens) h cs

theorem Kept.frozen (h : p.Kept) (cs : List (Call × CanonicalTime)) : p.Frozen (p.calls cs) :=
  Machine.run_relates (P := Kept) (R := Frozen) (fun _ _ _ _ _ hlot _ => hlot)
    (fun _ _ _ => Frozen.trans) (fun p c p' hp hcall => by
      refine ⟨step_preserves (fun _ _ _ hp hhappens => hp.happens hhappens) p c p' hp hcall, ?_⟩
      rcases call_eq_ok hcall with ⟨rfl, -⟩ | ⟨-, next, revision, he, -, rfl⟩
      · exact fun _ _ _ _ hlot _ => hlot
      · have hfrozen := Frozen.event hp.filed he
        exact hfrozen) h cs

/-- The ledger and the records of a program agree. -/
structure Agrees (p : FinancialProgram) : Prop where
  pending : ∀ id lot, p.records.funding.get? id = some lot →
    p.ledger.view.signedBalance (.pendingForfeiture id) =
      if lot.lifecycle.isAssessed then 0 else lot.source.amount.units
  unfunded : ∀ id, p.records.funding.get? id = none →
    p.ledger.view.signedBalance (.pendingForfeiture id) = 0
  payable : ∀ id payable, p.records.payables.get? id = some payable →
    p.ledger.view.signedBalance (.memberPayable id) = payable.outstanding.units
  unallocated : ∀ id, p.records.payables.get? id = none →
    p.ledger.view.signedBalance (.memberPayable id) = 0
  restricted : p.ledger.view.signedBalance .restrictedMemberFunds =
    ((p.latest.map fun a => a.remainder.units).getD 0 : ℕ)
  /-- The latest distribution is the one of the last year, and the last one finalized. -/
  latest : ∀ a ∈ p.records.annualAllocations.values, ∃ b, p.latest = some b ∧
    a.schedule.id ≤ b.schedule.id ∧ a.finalizedAt ≤ b.finalizedAt
  corporate : p.ledger.view.signedBalance .corporatePoolRevenue =
    (p.records.annualAllocations.sumBy fun a => a.corporateShare.units : ℕ)
  total : (p.ledger.view.balances.map Prod.snd).sum = 0
  /-- A lot is assessed once, in one distribution. -/
  once : ∀ a ∈ p.records.annualAllocations.values, a.funding.Nodup ∧
    ∀ b ∈ p.records.annualAllocations.values, ∀ lot ∈ a.funding, lot ∈ b.funding → a = b

theorem Kept.agrees (h : p.Kept) : p.Agrees where
  pending id lot hlot := by
    rw [h.reconciled.pending, pendingOf, hlot]
    show ((if lot.lifecycle.isAssessed = true then 0 else lot.source.amount.units : ℕ) : ℤ) = _
    split_ifs <;> rfl
  unfunded id hnone := by
    rw [h.reconciled.pending, pendingOf, hnone]
    rfl
  payable id payable hpayable := by
    rw [h.reconciled.owed, owedOn, hpayable]
    rfl
  unallocated id hnone := by
    rw [h.reconciled.owed, owedOn, hnone]
    rfl
  restricted := h.reconciled.carried
  latest a ha := by
    obtain ⟨id, ha⟩ := SortedMap.mem_values.mp ha
    obtain ⟨id', b, hlast, hb, hle, htime⟩ := h.closed.latest ha
    refine ⟨b, hlast, ?_, htime⟩
    rw [(h.filed.schedules id _ (h.filed.allocations id a ha)).1,
      (h.filed.schedules id' _ (h.filed.allocations id' b hb)).1]
    exact hle
  corporate := h.reconciled.corporate
  total := h.reconciled.conserved.total
  once a ha := by
    obtain ⟨id, ha⟩ := SortedMap.mem_values.mp ha
    refine ⟨h.closed.distinct id a ha, fun b hb lot hlot hlot' => ?_⟩
    obtain ⟨id', hb⟩ := SortedMap.mem_values.mp hb
    obtain ⟨l, clearance, hl, hassessed⟩ := h.closed.assessed id a lot ha hlot
    obtain ⟨l', clearance', hl', hassessed'⟩ := h.closed.assessed id' b lot hb hlot'
    rw [hl] at hl'
    cases hl'
    rw [hassessed] at hassessed'
    cases hassessed'
    rw [ha] at hb
    cases hb
    rfl

/-- **The program and its ledger agree.** After any operations, accepted or refused, every
account holds what the records say; and what was assessed once stays so. -/
theorem program_ledger_agree (scope : FinancialScope) (unit : SettlementUnit)
    (cs more : List (Call × CanonicalTime)) :
    ((new scope unit).calls cs).Agrees ∧
      ((new scope unit).calls cs).Frozen ((new scope unit).calls (cs ++ more)) := by
  have hkept := (kept_new scope unit).calls cs
  have happend : (new scope unit).calls (cs ++ more) = ((new scope unit).calls cs).calls more :=
    Machine.run_append ..
  exact ⟨hkept.agrees, happend ▸ hkept.frozen more⟩

end
end FinancialProgram
end CsMail
