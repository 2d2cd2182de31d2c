import CsMail.Work.QueueProofs

/-! Any number of workers over one work table, in any order and with any clocks.

A log keeps what the statements answered, the newest first. -/
namespace CsMail
open Library

/-- The work table, and what was answered, the newest first. -/
structure WorkLog where
  table : WorkTable
  outcomes : List WorkOutcome := []

namespace WorkLog

/-- The latest claim on a row: its token and the end of its lease. -/
def latestClaim (b : WorkLog) (id : ℕ) : Option (ℕ × BigInt) := b.outcomes.findSome? (·.claimOf id)

/-- The claims that an acknowledgement settled. -/
def settlements (b : WorkLog) : List (ℕ × ℕ) := b.outcomes.filterMap WorkOutcome.settled

def call (b : WorkLog) (c : WorkCall) : Except StorageError WorkLog :=
  (b.table.call c).map fun r => ⟨r.1, r.2 :: b.outcomes⟩

def calls (b : WorkLog) (cs : List WorkCall) : WorkLog := Machine.run call b cs

/-- The table before any work. -/
def new : WorkLog := ⟨.empty, []⟩

end WorkLog

/-! ### One row -/

namespace WorkRow
variable {id drawn : ℕ} {o : WorkOutcome} {r r' : WorkRow}

/-- The obligation a row is for. -/
structure SameWork (r r' : WorkRow) : Prop where
  owner : r'.owner = r.owner
  workKey : r'.workKey = r.workKey
  kind : r'.kind = r.kind
  payload : r'.payload = r.payload

theorem Change.sameWork (h : r.Change id drawn o r') : r.SameWork r' := by
  cases h <;> exact ⟨rfl, rfl, rfl, rfl⟩

/-- A settled claim was running, under the token of the row. -/
theorem Change.running {token : ℕ} (h : r.Change id drawn o r') (ho : o.settled = some (id, token)) :
    r.status = .running ∧ r.claimToken = some token ∧ r'.status ≠ .running := by
  cases h with
  | kept hclaim hsettled => exact absurd ho (hsettled token)
  | claimed hdue hlater hclaim hnone hlow hcount =>
    rw [hnone] at ho
    cases ho
  | settled heq hid htime hruns hstatus =>
    subst heq
    simp only [WorkOutcome.settled, Option.some.injEq, Prod.mk.injEq] at ho
    simp only [runs, decide_eq_true_eq] at hruns
    exact ⟨hruns.2.2.1, ho.2 ▸ hruns.2.1, hstatus⟩
  | resumed heq hblocked =>
    subst heq
    cases ho

/-- A completed row is left as it is. -/
theorem Change.complete (h : r.Change id drawn o r') (hr : r.status = .complete) :
    r' = r ∧ o.claimOf id = none := by
  cases h with
  | kept hclaim hsettled => exact ⟨rfl, hclaim⟩
  | claimed hdue => simp [due, hr] at hdue
  | settled heq hid htime hruns => simp [runs, hr] at hruns
  | resumed heq hblocked =>
    rw [hr] at hblocked
    cases hblocked

end WorkRow

namespace WorkLog
variable {b b' : WorkLog} {t' : WorkTable} {o : WorkOutcome} {id : ℕ} {r r' : WorkRow}

/-- What a row owes its past. -/
structure RowSound (b : WorkLog) (id : ℕ) (r : WorkRow) : Prop where
  addressed : ∃ q : ClaimQueue, r.owner = q.owner ∧ r.kind = q.kind
  identified : id < b.table.nextId
  drawn : ∀ token, r.claimToken = some token → token < b.table.nextToken
  latest : (b.latestClaim id).map Prod.fst = r.claimToken
  leased : r.status = .running → ∃ claim, b.latestClaim id = some claim ∧ r.claimUntil = some claim.2
  spent : ∀ token, (id, token) ∈ b.settlements → r.claimToken = some token → r.status ≠ .running

structure Sound (b : WorkLog) : Prop where
  rows : ∀ id r, b.table.rows.get? id = some r → b.RowSound id r
  unique : ∀ i j r r', b.table.rows.get? i = some r → b.table.rows.get? j = some r' →
    r.owner = r'.owner → r.workKey = r'.workKey → i = j
  claimed : ∀ id, b.latestClaim id ≠ none → ∃ r, b.table.rows.get? id = some r
  settled : ∀ claim ∈ b.settlements, claim.2 < b.table.nextToken ∧ ∃ r, b.table.rows.get? claim.1 = some r
  once : b.settlements.Nodup

theorem new_sound : new.Sound where
  rows id r h := by cases h
  unique i j r r' h := by cases h
  claimed id h := absurd rfl h
  settled claim h := by cases h
  once := List.nodup_nil

theorem latestClaim_cons (id : ℕ) : (⟨t', o :: b.outcomes⟩ : WorkLog).latestClaim id =
    (o.claimOf id).or (b.latestClaim id) := by
  simp only [latestClaim, List.findSome?_cons]
  cases o.claimOf id <;> rfl

theorem mem_settlements {claim : ℕ × ℕ} :
    claim ∈ (⟨t', o :: b.outcomes⟩ : WorkLog).settlements ↔
      o.settled = some claim ∨ claim ∈ b.settlements := by
  simp only [settlements, List.filterMap_cons]
  cases ho : o.settled with
  | none => simp
  | some c => simp [eq_comm]

theorem Sound.fresh (h : b.Sound) : b.table.rows.get? b.table.nextId = none := by
  cases hr : b.table.rows.get? b.table.nextId with
  | none => rfl
  | some r => exact absurd (h.rows _ r hr).identified (lt_irrefl _)

/-- A row that changes owes its past what it did. -/
theorem Sound.row (h : b.Sound) (hc : b.table.Change o t') (hr : b.table.rows.get? id = some r)
    (hrow : r.Change id b.table.nextToken o r') : (⟨t', o :: b.outcomes⟩ : WorkLog).RowSound id r' := by
  have hold := h.rows id r hr
  have hid : id < t'.nextId := hold.identified.trans_le hc.ids
  -- An outcome without a claim on the row, and whose settlement stops it, keeps the rest.
  have hquiet (hclaim : o.claimOf id = none) :
      (⟨t', o :: b.outcomes⟩ : WorkLog).latestClaim id = b.latestClaim id := by
    rw [latestClaim_cons, hclaim]
    rfl
  have hdrawn : ∀ token, r.claimToken = some token → token < t'.nextToken := fun token htoken =>
    (hold.drawn token htoken).trans_le hc.tokens
  cases hrow with
  | kept hclaim hsettled =>
    refine ⟨hold.addressed, hid, hdrawn, (congrArg _ (hquiet hclaim)).trans hold.latest, fun hrun => ?_,
      fun token hmem => ?_⟩
    · rw [hquiet hclaim]
      exact hold.leased hrun
    · rcases mem_settlements.mp hmem with hnew | hmem
      · exact absurd hnew (hsettled token)
      · exact hold.spent token hmem
  | @claimed now claimUntil token attempts hdue hlater hclaim hnone hlow hcount =>
    have hlatest : (⟨t', o :: b.outcomes⟩ : WorkLog).latestClaim id = some (token, claimUntil) := by
      rw [latestClaim_cons, hclaim]
      rfl
    refine ⟨hold.addressed, hid, fun τ hτ => ?_, by rw [hlatest]; rfl, fun _ => ⟨_, hlatest, rfl⟩,
      fun τ hmem hτ => ?_⟩
    · cases hτ
      exact (hc.drawn id _ hclaim).1
    · cases hτ
      rcases mem_settlements.mp hmem with hnew | hmem
      · rw [hnone] at hnew
        cases hnew
      · exact absurd ((h.settled _ hmem).1.trans_le hlow) (lt_irrefl _)
  | settled heq hitem htime hruns hstatus =>
    subst heq
    exact ⟨hold.addressed, hid, hdrawn, (congrArg _ (hquiet rfl)).trans hold.latest,
      fun hrun => absurd hrun hstatus, fun _ _ _ => hstatus⟩
  | resumed heq hblocked =>
    subst heq
    exact ⟨hold.addressed, hid, hdrawn, (congrArg _ (hquiet rfl)).trans hold.latest,
      fun hrun => (by cases hrun), fun _ _ _ hrun => (by cases hrun)⟩

/-- **One statement keeps the log sound.** -/
theorem Sound.change (h : b.Sound) (hc : b.table.Change o t') : (⟨t', o :: b.outcomes⟩ : WorkLog).Sound := by
  -- A row of the new table was there before, or has just been added.
  have hrows : ∀ id r', t'.rows.get? id = some r' →
      (∃ r, b.table.rows.get? id = some r ∧ r.Change id b.table.nextToken o r') ∨
        b.table.rows.get? id = none := fun id r' hr' => by
    cases hr : b.table.rows.get? id with
    | none => exact .inr rfl
    | some r =>
      obtain ⟨r₁, hr₁, hrow⟩ := hc.rows id r hr
      rw [hr'] at hr₁
      cases hr₁
      exact .inl ⟨r, rfl, hrow⟩
  have hpresent : ∀ id, (∃ r, b.table.rows.get? id = some r) → ∃ r', t'.rows.get? id = some r' :=
    fun id ⟨r, hr⟩ => (hc.rows id r hr).imp fun _ h => h.1
  have hclaimed : ∀ id, (⟨t', o :: b.outcomes⟩ : WorkLog).latestClaim id ≠ none →
      ∃ r, b.table.rows.get? id = some r := fun id hne => by
    rw [latestClaim_cons] at hne
    cases hclaim : o.claimOf id with
    | none =>
      rw [hclaim] at hne
      exact h.claimed id hne
    | some claim => exact (hc.drawn id claim hclaim).2
  have hsettled : ∀ claim ∈ (⟨t', o :: b.outcomes⟩ : WorkLog).settlements,
      ∃ r, b.table.rows.get? claim.1 = some r := fun claim hmem => by
    rcases mem_settlements.mp hmem with hnew | hmem
    · exact hc.acknowledged claim hnew
    · exact (h.settled claim hmem).2
  -- The claim that is settled now was running, so it was not settled before.
  have hnew : ∀ claim, o.settled = some claim → claim.2 < b.table.nextToken ∧ claim ∉ b.settlements :=
    fun claim hnew => by
      obtain ⟨r, hr⟩ := hc.acknowledged claim hnew
      obtain ⟨r', -, hrow⟩ := hc.rows _ r hr
      obtain ⟨hrunning, htoken, -⟩ := hrow.running hnew
      have hold := h.rows _ r hr
      exact ⟨hold.drawn _ htoken, fun hmem => hold.spent _ hmem htoken hrunning⟩
  refine ⟨fun id r' hr' => ?_, fun i j r r' hi hj howner hkey => ?_,
    fun id hne => hpresent id (hclaimed id hne), fun claim hmem => ⟨?_, hpresent _ (hsettled claim hmem)⟩, ?_⟩
  · rcases hrows id r' hr' with ⟨r, hr, hrow⟩ | hnone
    · exact h.row hc hr hrow
    obtain ⟨hadded, -, hid, -⟩ := hc.added id r' hnone hr'
    have hlatest : (⟨t', o :: b.outcomes⟩ : WorkLog).latestClaim id = none := by
      by_contra hne
      obtain ⟨r, hr⟩ := hclaimed id hne
      rw [hnone] at hr
      cases hr
    refine ⟨hadded.addressed, hid, fun token htoken => ?_, ?_, fun hrun => ?_, fun token _ htoken => ?_⟩
    · rw [hadded.unclaimed] at htoken
      cases htoken
    · rw [hlatest, hadded.unclaimed]
      rfl
    · rw [hadded.ready] at hrun
      cases hrun
    · rw [hadded.unclaimed] at htoken
      cases htoken
  · rcases hrows i r hi with ⟨q, hq, hrow⟩ | hnone <;> rcases hrows j r' hj with ⟨q', hq', hrow'⟩ | hnone'
    · refine h.unique i j q q' hq hq' ?_ ?_
      · rw [← hrow.sameWork.owner, howner, hrow'.sameWork.owner]
      · rw [← hrow.sameWork.workKey, hkey, hrow'.sameWork.workKey]
    · refine absurd (hrow.sameWork.workKey.symm.trans hkey) ((hc.added j r' hnone' hj).2.2.2 i q hq ?_)
      exact hrow.sameWork.owner.symm.trans howner
    · refine absurd (hrow'.sameWork.workKey.symm.trans hkey.symm) ((hc.added i r hnone hi).2.2.2 j q' hq' ?_)
      exact hrow'.sameWork.owner.symm.trans howner.symm
    · exact (hc.added i r hnone hi).2.1.trans (hc.added j r' hnone' hj).2.1.symm
  · rcases mem_settlements.mp hmem with hnow | hmem
    · exact (hnew claim hnow).1.trans_le hc.tokens
    · exact (h.settled claim hmem).1.trans_le hc.tokens
  · cases ho : o.settled with
    | none => simpa [settlements, ho] using h.once
    | some claim =>
      have hcons : (⟨t', o :: b.outcomes⟩ : WorkLog).settlements = claim :: b.settlements := by
        simp [settlements, ho]
      rw [hcons]
      exact List.nodup_cons.mpr ⟨(hnew claim ho).2, h.once⟩

theorem Sound.call {c : WorkCall} (h : b.Sound) (hc : b.call c = .ok b') : b'.Sound := by
  obtain ⟨⟨t', o⟩, hcall, rfl⟩ := map_eq_ok.mp hc
  exact h.change (WorkTable.call_change h.fresh hcall)

theorem Sound.calls (h : b.Sound) (cs : List WorkCall) : (b.calls cs).Sound :=
  Machine.run_preserves (fun _ _ _ hb hc => hb.call hc) h cs

/-! ### Whole runs -/

/-- Every statement on a sound log changes a row as a statement can. -/
theorem Sound.row_calls {P : WorkRow → Prop} (h : b.Sound)
    (hstep : ∀ {o drawn r r'}, P r → r.Change id drawn o r' → P r') (hr : b.table.rows.get? id = some r)
    (hP : P r) (cs : List WorkCall) :
    (b.calls cs).Sound ∧ ∃ r', (b.calls cs).table.rows.get? id = some r' ∧ P r' := by
  refine Machine.run_preserves (P := fun b : WorkLog => b.Sound ∧
    ∃ r', b.table.rows.get? id = some r' ∧ P r') (fun b c b' ⟨hb, q, hq, hPq⟩ hc => ?_) ⟨h, r, hr, hP⟩ cs
  obtain ⟨⟨t', o⟩, hcall, rfl⟩ := map_eq_ok.mp hc
  have hchange := WorkTable.call_change hb.fresh hcall
  obtain ⟨q', hq', hrow⟩ := hchange.rows id q hq
  exact ⟨hb.change hchange, q', hq', hstep hPq hrow⟩

/-- The instant the waiting time of a row, or its lease, ends. -/
inductive Waits (r : WorkRow) (ready : BigInt) : Prop
  | backoff : r.status = .ready → ready = r.availableAt → Waits r ready
  | lease : r.status = .running → r.claimUntil = some ready → Waits r ready

theorem Waits.due {ready now : BigInt} (h : Waits r ready) (hnow : ready ≤ now) : r.due now = true := by
  cases h with
  | backoff hstatus hready => simp [WorkRow.due, hstatus, ← hready, hnow]
  | lease hstatus hready => simp [WorkRow.due, hstatus, hready, hnow]

/-- A claim within the ranges the statement checks, with room for the whole table. -/
structure InRange (t : WorkTable) (q : ClaimQueue) (now : BigInt) (time : CanonicalTime) (lease : Duration)
    (limit : ℤ) : Prop where
  clock : now.val = time.millis
  leased : lease.val ≠ 0
  ends : time.millis + lease.val.val < 2 ^ 63
  room : t.rows.entries.length ≤ limit
  counters : ∀ id r, t.rows.get? id = some r → r.owner = q.owner → r.kind = q.kind → r.due now = true →
    r.attempts.val + 1 < 2 ^ 31

/-- Claims are fenced. -/
structure Fenced (b : WorkLog) : Prop where
  unique : ∀ i j r r', b.table.rows.get? i = some r → b.table.rows.get? j = some r' →
    r.owner = r'.owner → r.workKey = r'.workKey → i = j
  /-- A row stays, and stays the row of its obligation. -/
  kept : ∀ id r, b.table.rows.get? id = some r → ∀ cs, ∃ r', (b.calls cs).table.rows.get? id = some r' ∧
    r.SameWork r'
  complete : ∀ id r, b.table.rows.get? id = some r → r.status = .complete → ∀ cs,
    (b.calls cs).table.rows.get? id = some r ∧
      ∀ c t' o, (b.calls cs).table.call c = .ok (t', o) → o.claimOf id = none
  effective : ∀ c t' item time, b.table.call c = .ok (t', .acknowledged item time true) →
    ∃ r claimUntil, b.table.rows.get? item.id = some r ∧ r.status = .running ∧
      b.latestClaim item.id = some (item.token, claimUntil) ∧ time.millis < claimUntil.val
  ineffective : ∀ c t' item time, b.table.call c = .ok (t', .acknowledged item time false) → t' = b.table
  once : b.settlements.Nodup
  claimable : ∀ id r, b.table.rows.get? id = some r → r.status ≠ .complete → r.status ≠ .blocked →
    ∃ ready q, Waits r ready ∧ r.owner = q.owner ∧ r.kind = q.kind ∧ ∀ now time lease limit,
      ready ≤ now → InRange b.table q now time lease limit → ∃ t' items claimUntil,
        b.table.call (.claimWork q time lease limit) = .ok (t', .claimed items claimUntil) ∧
          ∃ item ∈ items, item.id = id

theorem Sound.complete (h : b.Sound) (hr : b.table.rows.get? id = some r) (hstatus : r.status = .complete)
    (cs : List WorkCall) : (b.calls cs).table.rows.get? id = some r ∧
      ∀ c t' o, (b.calls cs).table.call c = .ok (t', o) → o.claimOf id = none := by
  have hstep : ∀ {o drawn q q'}, q = r → q.Change id drawn o q' → q' = r := fun hq hchange =>
    (hchange.complete (hq ▸ hstatus)).1.trans hq
  obtain ⟨hsound, q, hq, rfl⟩ := h.row_calls (P := fun q => q = r) hstep hr rfl cs
  refine ⟨hq, fun c t' o hcall => ?_⟩
  obtain ⟨q', -, hrow⟩ := (WorkTable.call_change hsound.fresh hcall).rows id q hq
  exact (hrow.complete hstatus).2

theorem Sound.effective {c : WorkCall} {item : WorkItem} {time : CanonicalTime} (h : b.Sound)
    (hcall : b.table.call c = .ok (t', .acknowledged item time true)) :
    ∃ r claimUntil, b.table.rows.get? item.id = some r ∧ r.status = .running ∧
      b.latestClaim item.id = some (item.token, claimUntil) ∧ time.millis < claimUntil.val := by
  have hchange := WorkTable.call_change h.fresh hcall
  obtain ⟨r, hr⟩ := hchange.acknowledged (item.id, item.token) rfl
  obtain ⟨r', -, hrow⟩ := hchange.rows _ r hr
  cases hrow with
  | kept hclaim hsettled => exact absurd rfl (hsettled item.token)
  | claimed hdue hlater hclaim hnone => cases hnone
  | resumed heq hblocked => cases heq
  | settled heq hid htime hruns hstatus =>
    cases heq
    simp only [WorkRow.runs, decide_eq_true_eq] at hruns
    obtain ⟨-, htoken, hrunning, hlease⟩ := hruns
    have hold := h.rows _ r hr
    obtain ⟨⟨token, claimUntil⟩, hlatest, huntil⟩ := hold.leased hrunning
    have hsame : some token = some item.token := by
      rw [← htoken, ← hold.latest, hlatest]
      rfl
    cases hsame
    rw [huntil, Option.any_some, decide_eq_true_eq, Fin.lt_def, htime] at hlease
    exact ⟨r, claimUntil, hr, hrunning, hlatest, hlease⟩

theorem ineffective {c : WorkCall} {item : WorkItem} {time : CanonicalTime}
    (hcall : b.table.call c = .ok (t', .acknowledged item time false)) : t' = b.table := by
  cases c with
  | enqueue | enqueueDeployment | claimWork | resumeWork =>
    obtain ⟨_, -, heq⟩ := map_eq_ok.mp hcall
    cases heq
  | completeWork handle item now => exact (WorkTable.acknowledge_change (by simp) hcall).2 rfl
  | retryWork handle item now failure =>
    obtain ⟨available, -, hack⟩ := bind_eq_ok.mp hcall
    exact (WorkTable.acknowledge_change (by simp) hack).2 rfl
  | blockWork handle item now failure => exact (WorkTable.acknowledge_change (by simp) hcall).2 rfl
  | drawToken => cases hcall

theorem Sound.claimable (h : b.Sound) (hr : b.table.rows.get? id = some r) (hcomplete : r.status ≠ .complete)
    (hblocked : r.status ≠ .blocked) : ∃ ready q, Waits r ready ∧ r.owner = q.owner ∧ r.kind = q.kind ∧
      ∀ now time lease limit, ready ≤ now → InRange b.table q now time lease limit →
        ∃ t' items claimUntil, b.table.call (.claimWork q time lease limit) =
          .ok (t', .claimed items claimUntil) ∧ ∃ item ∈ items, item.id = id := by
  have hold := h.rows _ r hr
  obtain ⟨q, howner, hkind⟩ := hold.addressed
  have hwaits : ∃ ready, Waits r ready := by
    cases hstatus : r.status with
    | ready => exact ⟨r.availableAt, .backoff hstatus rfl⟩
    | running =>
      obtain ⟨claim, -, huntil⟩ := hold.leased hstatus
      exact ⟨claim.2, .lease hstatus huntil⟩
    | complete => exact absurd hstatus hcomplete
    | blocked => exact absurd hstatus hblocked
  obtain ⟨ready, hwaits⟩ := hwaits
  refine ⟨ready, q, hwaits, howner, hkind, fun now time lease limit hnow hrange => ?_⟩
  obtain ⟨t', items, claimUntil, hclaim, hitems⟩ :=
    WorkTable.claim_succeeds hrange.clock hrange.leased hrange.ends hrange.room hrange.counters
  exact ⟨t', items, claimUntil, map_eq_ok.mpr ⟨_, hclaim, rfl⟩, hitems id r hr howner hkind (hwaits.due hnow)⟩

/-- **Claims on work are fenced**, whatever the workers do and whatever their clocks say. -/
theorem work_fenced (cs : List WorkCall) : (new.calls cs).Fenced := by
  have h := new_sound.calls cs
  exact {
    unique := h.unique
    kept := fun id r hr more => (h.row_calls (P := fun q => r.SameWork q)
      (fun hq hchange => by
        have hq' := hchange.sameWork
        exact ⟨hq'.owner.trans hq.owner, hq'.workKey.trans hq.workKey, hq'.kind.trans hq.kind,
          hq'.payload.trans hq.payload⟩) hr ⟨rfl, rfl, rfl, rfl⟩ more).2
    complete := fun id r hr hstatus more => h.complete hr hstatus more
    effective := fun c t' item time hcall => h.effective hcall
    ineffective := fun c t' item time hcall => ineffective hcall
    once := h.once
    claimable := fun id r hr hcomplete hblocked => h.claimable hr hcomplete hblocked}

/-! ### Rows no claim takes -/

/-- A claim ends after it began, and counts. -/
theorem Sound.claimOf {c : WorkCall} {claim : ℕ × BigInt} (h : b.Sound)
    (hr : b.table.rows.get? id = some r) (hcall : b.table.call c = .ok (t', o))
    (hclaim : o.claimOf id = some claim) :
    ∃ now, r.due now = true ∧ now < claim.2 ∧ r.attempts.val + 1 < 2 ^ 31 := by
  obtain ⟨r', -, hrow⟩ := (WorkTable.call_change h.fresh hcall).rows id r hr
  cases hrow with
  | kept hnone =>
    rw [hnone] at hclaim
    cases hclaim
  | @claimed now claimUntil token attempts hdue hlater hsome hnone hlow hcount =>
    rw [hsome] at hclaim
    cases hclaim
    exact ⟨now, hdue, hlater, hcount ▸ attempts.isLt⟩
  | settled heq =>
    subst heq
    cases hclaim
  | resumed heq =>
    subst heq
    cases hclaim

/-- Nothing claims the row. -/
def Unclaimable (b : WorkLog) (id : ℕ) : Prop :=
  ∀ c t' o, b.table.call c = .ok (t', o) → o.claimOf id = none

/-- A lease that ends with the last representable instant is never taken over. -/
theorem Sound.unclaimable_of_last (h : b.Sound) (hr : b.table.rows.get? id = some r)
    (hstatus : r.status = .running) (huntil : r.claimUntil = some (Fin.last _)) : b.Unclaimable id := by
  intro c t' o hcall
  by_contra hne
  obtain ⟨claim, hclaim⟩ := Option.ne_none_iff_exists'.mp hne
  obtain ⟨now, hdue, hlater, -⟩ := h.claimOf hr hcall hclaim
  simp only [WorkRow.due, hstatus, huntil, reduceCtorEq, false_and, true_and, false_or, Option.any_some,
    decide_eq_true_eq] at hdue
  exact absurd (hdue.trans_lt hlater) (not_lt.mpr (Fin.le_last _))

theorem Sound.unclaimable_of_attempts (h : b.Sound) (hr : b.table.rows.get? id = some r)
    (hattempts : r.attempts.val + 1 = 2 ^ 31) : b.Unclaimable id := by
  intro c t' o hcall
  by_contra hne
  obtain ⟨claim, hclaim⟩ := Option.ne_none_iff_exists'.mp hne
  obtain ⟨now, -, -, hroom⟩ := h.claimOf hr hcall hclaim
  omega

namespace Example

def queue : ClaimQueue := .relationship "r".toList .artifacts
def enqueue : WorkCall := .enqueue "r".toList (.receipt ⟨1⟩ 0) (.artifacts ⟨1⟩) ⟨0⟩

/-- The only row of the table has been claimed this often, each time for one instant. -/
structure Claimed (b : WorkLog) (n : ℕ) : Prop where
  only : ∀ id r, b.table.rows.get? id = some r → id = 1
  row : ∃ r, b.table.rows.get? 1 = some r ∧ r.owner = queue.owner ∧ r.kind = queue.kind ∧
    r.status = .running ∧ r.attempts.val = n ∧ ∃ claimUntil, r.claimUntil = some claimUntil ∧ claimUntil.val = n

theorem claimed_once : Claimed (new.calls [enqueue, .claimWork queue ⟨0⟩ ⟨1⟩ 1]) 1 where
  only id r h := by
    have hkeys : (new.calls [enqueue, .claimWork queue ⟨0⟩ ⟨1⟩ 1]).table.rows.keys = [1] := by decide +kernel
    have hmem := SortedMap.mem_keys.mpr ⟨r, h⟩
    rw [hkeys] at hmem
    exact List.mem_singleton.mp hmem
  row := by
    have hrow : (new.calls [enqueue, .claimWork queue ⟨0⟩ ⟨1⟩ 1]).table.rows.get? 1 = some {
        owner := queue.owner
        aggregate := some "r".toList
        workKey := "artifacts:1:0".toList
        kind := queue.kind
        payload := .artifacts ⟨1⟩
        content := none
        status := .running
        availableAt := 0
        claimUntil := some 1
        claimToken := some 1
        attempts := 1
        failure := none
        completedAt := none
        createdAt := 0
        position := some 1} := by decide +kernel
    exact ⟨_, hrow, rfl, rfl, rfl, rfl, 1, rfl, rfl⟩

/-- The lease of the last claim ends, and the row is claimed once more. -/
theorem Claimed.again {n : ℕ} (h : Claimed b n) (hn : n + 1 < 2 ^ 31) :
    ∃ c, Claimed (Machine.run call b [c]) (n + 1) := by
  obtain ⟨r, hr, howner, hkind, hstatus, hattempts, claimUntil, huntil, hends⟩ := h.row
  have hnow : n < 2 ^ 64 := by omega
  have hdue : r.due claimUntil = true := (Waits.lease hstatus huntil).due le_rfl
  have hroom : ∀ id q, b.table.rows.get? id = some q → q.owner = queue.owner → q.kind = queue.kind →
      q.due claimUntil = true → q.attempts.val + 1 < 2 ^ 31 := fun id q hq _ _ _ => by
    cases h.only id q hq
    rw [hr] at hq
    cases hq
    omega
  have hlease : n + (1 : U64).val < 2 ^ 63 := by
    show n + 1 < 2 ^ 63
    omega
  obtain ⟨t', items, ends, hclaim, hitems⟩ :=
    @WorkTable.claim_succeeds b.table queue.owner queue.kind ⟨⟨n, hnow⟩⟩ ⟨1⟩ b.table.rows.entries.length
      claimUntil hends (by decide) hlease le_rfl hroom
  have hcall : b.call (.claimWork queue ⟨⟨n, hnow⟩⟩ ⟨1⟩ b.table.rows.entries.length) =
      .ok ⟨t', .claimed items ends :: b.outcomes⟩ :=
    map_eq_ok.mpr ⟨(t', .claimed items ends), map_eq_ok.mpr ⟨_, hclaim, rfl⟩, rfl⟩
  refine ⟨.claimWork queue ⟨⟨n, hnow⟩⟩ ⟨1⟩ b.table.rows.entries.length, ?_⟩
  have hrun : Machine.run call b [.claimWork queue ⟨⟨n, hnow⟩⟩ ⟨1⟩ b.table.rows.entries.length] =
      ⟨t', .claimed items ends :: b.outcomes⟩ := by
    show Machine.advance call b _ = _
    unfold Machine.advance
    rw [hcall]
  have hclaimed := WorkTable.claim_eq_ok hclaim
  obtain ⟨now, -, -, taken, hclaims, hperm⟩ := hclaimed.leased
  obtain ⟨item, hitem, hid⟩ := hitems 1 r hr howner hkind hdue
  obtain ⟨row, attempts, hmem, -, -, hcount, hget⟩ := hclaims.taken item (hperm.mem_iff.mp hitem)
  have hrow := (WorkTable.mem_candidates hmem).1
  rw [hid] at hget hrow
  rw [hr] at hrow
  cases hrow
  rw [hrun]
  refine ⟨fun id q hq => ?_, _, hget, howner, hkind, rfl, by rw [hcount, hattempts], ends, rfl, hclaimed.lease⟩
  by_contra hne
  cases hq' : b.table.rows.get? id with
  | some q' => exact hne (h.only id q' hq')
  | none =>
    rw [hclaims.others id fun hmem => ?_, hq'] at hq
    · cases hq
    · obtain ⟨⟨_, q'⟩, hq'', rfl⟩ := List.mem_map.mp hmem
      exact hne (h.only _ q' (WorkTable.mem_candidates hq'').1)

theorem claimed_times (n : ℕ) (hn : n + 1 < 2 ^ 31) : ∃ cs, Claimed (new.calls cs) (n + 1) := by
  induction n with
  | zero => exact ⟨_, claimed_once⟩
  | succ n ih =>
    obtain ⟨cs, hcs⟩ := ih (by omega)
    obtain ⟨c, hc⟩ := hcs.again hn
    exact ⟨cs ++ [c], by rw [calls, Machine.run_append]; exact hc⟩

end Example

/-- A lease may end with the last representable instant, and after 2^31 - 1 claims the counter
of attempts is used up: no claim takes the row again. -/
theorem work_unclaimable :
    (∃ cs id r, (new.calls cs).table.rows.get? id = some r ∧ r.status = .running ∧
      (new.calls cs).Unclaimable id ∧ r.claimUntil = some (Fin.last _)) ∧
    (∃ cs id r, (new.calls cs).table.rows.get? id = some r ∧ r.status = .running ∧
      (new.calls cs).Unclaimable id ∧ ∃ claimUntil, r.claimUntil = some claimUntil ∧
        claimUntil.val = 2 ^ 31 - 1) := by
  constructor
  · have hstatus : ((new.calls [Example.enqueue, .claimWork Example.queue ⟨0⟩ ⟨⟨2 ^ 63 - 1, by decide⟩⟩ 1]).table.rows.get? 1).map
        (fun r => (r.status, r.claimUntil)) = some (.running, some (Fin.last _)) := by decide +kernel
    obtain ⟨r, hr, heq⟩ := Option.map_eq_some_iff.mp hstatus
    obtain ⟨hrunning, huntil⟩ := Prod.mk.inj heq
    exact ⟨_, 1, r, hr, hrunning, (new_sound.calls _).unclaimable_of_last hr hrunning huntil, huntil⟩
  · obtain ⟨cs, hcs⟩ := Example.claimed_times (2 ^ 31 - 2) (by decide)
    obtain ⟨r, hr, -, -, hstatus, hattempts, claimUntil, huntil, hends⟩ := hcs.row
    refine ⟨cs, 1, r, hr, hstatus, (new_sound.calls cs).unclaimable_of_attempts hr ?_, claimUntil, huntil, hends⟩
    omega

end WorkLog
end CsMail
