import CsMail.Library.Machine
import CsMail.Work.Queue

/-! Claims on work are fenced.

One statement changes one row in one of three ways (`WorkRow.Change`), or adds a row. What a
row owes the past is read off the outcomes alone: its token and its lease are those of its
latest claim, and a claim that was acknowledged runs no more (`WorkLog.Sound`). -/
namespace CsMail
open Library

/-! ### One statement -/

/-- The claim on a row that an outcome gave, if it gave one. -/
def WorkOutcome.claimOf (id : ℕ) : WorkOutcome → Option (ℕ × BigInt)
  | claimed items claimUntil => (items.find? (fun item => item.id = id)).map fun item => (item.token, claimUntil)
  | _ => none

/-- The claim an outcome settled. -/
def WorkOutcome.settled : WorkOutcome → Option (ℕ × ℕ)
  | acknowledged item _ true => some (item.id, item.token)
  | _ => none

namespace WorkRow

/-- What a statement does to a row that is there. -/
inductive Change (id drawn : ℕ) (o : WorkOutcome) (r : WorkRow) : WorkRow → Prop
  | kept : o.claimOf id = none → (∀ token, o.settled ≠ some (id, token)) → Change id drawn o r r
  | claimed {now claimUntil : BigInt} {token : ℕ} {attempts : Fin (2 ^ 31)} : r.due now = true →
      now < claimUntil → o.claimOf id = some (token, claimUntil) → o.settled = none → drawn ≤ token →
      attempts.val = r.attempts.val + 1 →
      Change id drawn o r {r with
        status := .running, claimUntil := some claimUntil, claimToken := some token, attempts}
  | settled {item : WorkItem} {now : BigInt} {time : CanonicalTime} {status : WorkStatus}
      {availableAt : BigInt} {failure : Option Text} {completedAt : Option BigInt} :
      o = .acknowledged item time true → item.id = id → now.val = time.millis → r.runs item now = true →
      status ≠ .running →
      Change id drawn o r {r with status, availableAt, failure, completedAt, claimUntil := none}
  | resumed {availableAt : BigInt} : o = .resumed true → r.status = .blocked →
      Change id drawn o r {r with status := .ready, availableAt, failure := none}

/-- A row that has just been added. -/
structure New (r : WorkRow) : Prop where
  ready : r.status = .ready
  unclaimed : r.claimToken = none
  addressed : ∃ q : ClaimQueue, r.owner = q.owner ∧ r.kind = q.kind

end WorkRow

namespace WorkTable
variable {t t' : WorkTable} {o : WorkOutcome}

/-- What a statement does to the table. -/
structure Change (t : WorkTable) (o : WorkOutcome) (t' : WorkTable) : Prop where
  ids : t.nextId ≤ t'.nextId
  tokens : t.nextToken ≤ t'.nextToken
  rows : ∀ id r, t.rows.get? id = some r → ∃ r', t'.rows.get? id = some r' ∧ r.Change id t.nextToken o r'
  added : ∀ id r', t.rows.get? id = none → t'.rows.get? id = some r' → r'.New ∧ id = t.nextId ∧
    id < t'.nextId ∧ ∀ i r, t.rows.get? i = some r → r.owner = r'.owner → r.workKey ≠ r'.workKey
  drawn : ∀ id claim, o.claimOf id = some claim → claim.1 < t'.nextToken ∧ ∃ r, t.rows.get? id = some r
  acknowledged : ∀ claim, o.settled = some claim → ∃ r, t.rows.get? claim.1 = some r

/-- A statement that changed no row. -/
theorem Change.idle (hrows : t'.rows = t.rows) (hids : t.nextId ≤ t'.nextId)
    (htokens : t.nextToken ≤ t'.nextToken) (hclaim : ∀ id, o.claimOf id = none)
    (hsettled : o.settled = none) : t.Change o t' where
  ids := hids
  tokens := htokens
  rows id r hr := ⟨r, hrows ▸ hr, .kept (hclaim id) fun token => by simp [hsettled]⟩
  added id r' hnone hr' := by
    rw [hrows, hnone] at hr'
    cases hr'
  drawn id claim h := by
    rw [hclaim] at h
    cases h
  acknowledged claim h := by
    rw [hsettled] at h
    cases h

/-- A statement that changed one row. -/
theorem Change.single {id : ℕ} {r r' : WorkRow} (hr : t.rows.get? id = some r)
    (hchange : r.Change id t.nextToken o r') (hclaim : ∀ id, o.claimOf id = none)
    (hsettled : ∀ claim, o.settled = some claim → claim.1 = id) :
    t.Change o {t with rows := t.rows.insert id r'} where
  ids := le_rfl
  tokens := le_rfl
  rows id' q hq := by
    by_cases heq : id' = id
    · subst heq
      rw [hr] at hq
      cases hq
      exact ⟨r', SortedMap.get?_insert_self .., hchange⟩
    · refine ⟨q, (SortedMap.get?_insert_ne _ _ heq).trans hq, .kept (hclaim id') fun token h => heq ?_⟩
      exact hsettled _ h
  added id' q hnone hq := by
    rcases SortedMap.get?_insert_eq_some.mp hq with ⟨rfl, -⟩ | ⟨-, hold⟩
    · rw [hr] at hnone
      cases hnone
    · rw [hnone] at hold
      cases hold
  drawn id' claim h := by
    rw [hclaim] at h
    cases h
  acknowledged claim h := ⟨r, hsettled claim h ▸ hr⟩

theorem insert_change {owner kind : Text} {aggregate : Option Text} {availableAt : U64}
    {source : WorkSource} {payload : WorkPayload} {now : CanonicalTime}
    (hq : ∃ q : ClaimQueue, owner = q.owner ∧ kind = q.kind) (hfresh : t.rows.get? t.nextId = none)
    (h : t.insert owner aggregate kind availableAt source payload now = .ok t') : t.Change .done t' := by
  simp only [insert, bind_eq_ok, Prod.exists] at h
  obtain ⟨workKey, position, -, created, -, available, -, h⟩ := h
  split_ifs at h with hconflict
  · cases h
    exact .idle rfl (Nat.le_succ _) le_rfl (fun _ => rfl) rfl
  cases h
  refine ⟨Nat.le_succ _, le_rfl, fun id r hr => ?_, fun id r' hnone hr' => ?_, fun id claim h => ?_,
    fun claim h => ?_⟩
  · have hne : id ≠ t.nextId := fun heq => by simp [heq, hfresh] at hr
    exact ⟨r, (SortedMap.get?_insert_ne _ _ hne).trans hr, .kept rfl fun token h => by cases h⟩
  · rcases SortedMap.get?_insert_eq_some.mp hr' with ⟨rfl, rfl⟩ | ⟨-, hold⟩
    · refine ⟨⟨rfl, rfl, hq⟩, rfl, Nat.lt_succ_self _, fun i r hr howner hkey => hconflict ?_⟩
      refine List.any_eq_true.mpr ⟨r, SortedMap.mem_values.mpr ⟨i, hr⟩, ?_⟩
      simp [howner, hkey]
    · rw [hnone] at hold
      cases hold
  · cases h
  · cases h

/-! ### Claims -/

/-- What claiming rows one after another does: each under its own new token. -/
structure Claims (t : WorkTable) (claimUntil : BigInt) (l : List (ℕ × WorkRow)) (t' : WorkTable)
    (items : List WorkItem) : Prop where
  ids : items.map (·.id) = l.map Prod.fst
  nextId : t'.nextId = t.nextId
  tokens : t.nextToken ≤ t'.nextToken
  others : ∀ id, id ∉ l.map Prod.fst → t'.rows.get? id = t.rows.get? id
  taken : ∀ item ∈ items, ∃ row attempts, (item.id, row) ∈ l ∧ t.nextToken ≤ item.token ∧
    item.token < t'.nextToken ∧ attempts.val = row.attempts.val + 1 ∧
    t'.rows.get? item.id = some {row with
      status := .running, claimUntil := some claimUntil, claimToken := some item.token, attempts}

theorem claimRows_eq_ok {claimUntil : BigInt} {l : List (ℕ × WorkRow)} {items : List WorkItem}
    (hl : (l.map Prod.fst).Nodup) (h : claimRows claimUntil l t = .ok (t', items)) :
    t.Claims claimUntil l t' items := by
  induction l generalizing t items with
  | nil =>
    cases h
    exact ⟨rfl, rfl, le_rfl, fun _ _ => rfl, fun item hitem => by cases hitem⟩
  | cons e rest ih =>
    simp only [claimRows, claimRow, bind_eq_ok, okOr_eq_ok, Except.ok.injEq, Prod.mk.injEq, Prod.exists] at h
    obtain ⟨t₁, first, ⟨attempts, hattempts, rfl, rfl⟩, t₂, later, hrest, rfl, rfl⟩ := h
    obtain ⟨hnot, hnodup⟩ := List.nodup_cons.mp hl
    have hclaims := ih hnodup hrest
    refine ⟨congrArg (e.1 :: ·) hclaims.ids, hclaims.nextId, (Nat.le_succ _).trans hclaims.tokens,
      fun id hid => ?_, fun item hitem => ?_⟩
    · obtain ⟨hne, hid⟩ := not_or.mp (fun h => hid (List.mem_cons.mpr h))
      exact (hclaims.others id hid).trans (SortedMap.get?_insert_ne _ _ hne)
    · rcases List.mem_cons.mp hitem with rfl | hitem
      · refine ⟨e.2, attempts, List.mem_cons_self, le_rfl, hclaims.tokens, Checked.succ_eq_some.mp hattempts, ?_⟩
        exact (hclaims.others e.1 hnot).trans (SortedMap.get?_insert_self ..)
      · obtain ⟨row, count, hrow, hlow, hhigh, hcount, hget⟩ := hclaims.taken item hitem
        exact ⟨row, count, List.mem_cons_of_mem _ hrow, (Nat.le_succ _).trans hlow, hhigh, hcount, hget⟩

/-- Only an exhausted counter stops a claim. -/
theorem claimRows_succeeds (claimUntil : BigInt) {l : List (ℕ × WorkRow)}
    (hl : ∀ e ∈ l, e.2.attempts.val + 1 < 2 ^ 31) (t : WorkTable) :
    ∃ t' items, claimRows claimUntil l t = .ok (t', items) := by
  induction l generalizing t with
  | nil => exact ⟨t, [], rfl⟩
  | cons e rest ih =>
    obtain ⟨hfirst, hrest⟩ := List.forall_mem_cons.mp hl
    obtain ⟨attempts, hattempts⟩ : ∃ attempts, Checked.succ e.2.attempts = some attempts :=
      ⟨⟨_, hfirst⟩, Checked.succ_eq_some.mpr rfl⟩
    have hclaim : ∃ t₁ item, t.claimRow claimUntil e = .ok (t₁, item) :=
      ⟨_, _, bind_eq_ok.mpr ⟨attempts, okOr_eq_ok.mpr hattempts, rfl⟩⟩
    obtain ⟨t₁, item, hclaim⟩ := hclaim
    obtain ⟨t₂, items, hitems⟩ := ih hrest t₁
    exact ⟨t₂, item :: items, bind_eq_ok.mpr ⟨_, hclaim, bind_eq_ok.mpr ⟨_, hitems, rfl⟩⟩⟩

/-- A row a claim may take. -/
theorem mem_candidates {owner kind : Text} {now : BigInt} {limit id : ℕ} {r : WorkRow}
    (h : (id, r) ∈ t.candidates owner kind now limit) :
    t.rows.get? id = some r ∧ r.owner = owner ∧ r.kind = kind ∧ r.due now = true := by
  have hmem := List.mem_of_mem_take h
  rw [List.mem_mergeSort, List.mem_filter] at hmem
  simpa [SortedMap.mem_entries] using hmem

/-- With room for every row, a claim may take each that is due. -/
theorem mem_candidates_of_due {owner kind : Text} {now : BigInt} {limit id : ℕ} {r : WorkRow}
    (hr : t.rows.get? id = some r) (howner : r.owner = owner) (hkind : r.kind = kind)
    (hdue : r.due now = true) (hlimit : t.rows.entries.length ≤ limit) :
    (id, r) ∈ t.candidates owner kind now limit := by
  unfold candidates
  rw [List.take_of_length_le]
  · rw [List.mem_mergeSort, List.mem_filter]
    exact ⟨SortedMap.mem_entries.mpr hr, by simp [howner, hkind, hdue]⟩
  · rw [List.length_mergeSort]
    exact (List.length_filter_le _ _).trans hlimit

theorem candidates_nodup (owner kind : Text) (now : BigInt) (limit : ℕ) :
    ((t.candidates owner kind now limit).map Prod.fst).Nodup := by
  have hsub : (t.candidates owner kind now limit).map Prod.fst |>.Sublist
      ((t.rows.entries.filter fun e => e.2.owner = owner ∧ e.2.kind = kind ∧
        e.2.due now = true).mergeSort WorkRow.before |>.map Prod.fst) := (List.take_sublist _ _).map _
  refine hsub.nodup (((List.mergeSort_perm _ _).map Prod.fst).nodup_iff.mpr ?_)
  exact ((List.filter_sublist).map Prod.fst).nodup t.rows.keys_nodup

/-- A granted claim: what it takes, and the lease it gives. -/
structure Claimed (t : WorkTable) (owner kind : Text) (time : CanonicalTime) (lease : Duration)
    (limit : ℕ) (t' : WorkTable) (items : List WorkItem) (claimUntil : BigInt) : Prop where
  leased : ∃ now : BigInt, now.val = time.millis ∧ now < claimUntil ∧ ∃ taken,
    t.Claims claimUntil (t.candidates owner kind now limit) t' taken ∧ items.Perm taken
  lease : claimUntil.val = time.millis + lease.val.val

theorem claim_eq_ok {owner kind : Text} {time : CanonicalTime} {lease : Duration} {limit : ℤ}
    {items : List WorkItem} {claimUntil : BigInt}
    (h : t.claim owner kind time lease limit = .ok (t', items, claimUntil)) :
    t.Claimed owner kind time lease limit.toNat t' items claimUntil := by
  simp only [claim, bind_eq_ok, refuseIf_eq_ok, okOr_eq_ok, exists_const, not_or, Except.ok.injEq,
    Prod.mk.injEq, Prod.exists] at h
  obtain ⟨⟨hlease, -⟩, ends, hends, _, huntil, now, hnow, t₁, taken, hrows, rfl, rfl, rfl⟩ := h
  have hends := CanonicalTime.checkedAdd_eq_some.mp hends
  have huntil := (toI64_eq_ok.mp huntil).trans hends
  have hnow := toI64_eq_ok.mp hnow
  have hpositive : lease.val.val ≠ 0 := fun hzero => hlease (Fin.ext hzero)
  refine ⟨⟨now, hnow, ?_, taken, claimRows_eq_ok (candidates_nodup ..) hrows, List.mergeSort_perm _ _⟩, huntil⟩
  have hnow : now.val = time.millis := hnow
  rw [Fin.lt_def]
  omega

/-- The claim a batch gives on a row is the one of the item it returns for it. -/
theorem claimOf_claimed {items : List WorkItem} {claimUntil : BigInt} {id : ℕ} {claim : ℕ × BigInt}
    (h : (WorkOutcome.claimed items claimUntil).claimOf id = some claim) :
    ∃ item ∈ items, item.id = id ∧ claim = (item.token, claimUntil) := by
  obtain ⟨item, hfind, rfl⟩ := Option.map_eq_some_iff.mp h
  exact ⟨item, List.mem_of_find?_eq_some hfind, by simpa using List.find?_some hfind, rfl⟩

theorem claim_change {owner kind : Text} {time : CanonicalTime} {lease : Duration} {limit : ℕ}
    {items : List WorkItem} {claimUntil : BigInt}
    (h : t.Claimed owner kind time lease limit t' items claimUntil) :
    t.Change (.claimed items claimUntil) t' := by
  obtain ⟨now, -, hlater, taken, hclaims, hperm⟩ := h.leased
  have hids : ∀ id, id ∈ items.map (·.id) ↔ id ∈ (t.candidates owner kind now limit).map Prod.fst :=
    fun id => by rw [(hperm.map _).mem_iff, hclaims.ids]
  have hdrawn : ∀ id claim, (WorkOutcome.claimed items claimUntil).claimOf id = some claim →
      claim.1 < t'.nextToken ∧ ∃ r, t.rows.get? id = some r := fun id claim hclaim => by
    obtain ⟨item, hitem, rfl, rfl⟩ := claimOf_claimed hclaim
    obtain ⟨row, attempts, hrow, -, hhigh, -⟩ := hclaims.taken item (hperm.mem_iff.mp hitem)
    exact ⟨hhigh, row, (mem_candidates hrow).1⟩
  refine ⟨hclaims.nextId.ge, hclaims.tokens, fun id r hr => ?_, fun id r' hnone hr' => ?_, hdrawn,
    fun claim h => by cases h⟩
  · cases hclaim : (WorkOutcome.claimed items claimUntil).claimOf id with
    | none =>
      have hnot : id ∉ items.map (·.id) := fun hmem => by
        obtain ⟨item, hitem, hid⟩ := List.mem_map.mp hmem
        have := List.find?_eq_none.mp (Option.map_eq_none_iff.mp hclaim) item hitem
        simp [hid] at this
      have hkept := hclaims.others id (fun hmem => hnot ((hids id).mpr hmem))
      exact ⟨r, hkept.trans hr, .kept hclaim fun token h => by cases h⟩
    | some claim =>
      obtain ⟨item, hitem, rfl, rfl⟩ := claimOf_claimed hclaim
      obtain ⟨row, attempts, hrow, hlow, -, hcount, hget⟩ := hclaims.taken item (hperm.mem_iff.mp hitem)
      obtain ⟨hrow, -, -, hdue⟩ := mem_candidates hrow
      rw [hr] at hrow
      cases hrow
      exact ⟨_, hget, .claimed hdue hlater hclaim rfl hlow hcount⟩
  · have hnot : id ∉ (t.candidates owner kind now limit).map Prod.fst := fun hmem => by
      obtain ⟨⟨_, row⟩, hrow, rfl⟩ := List.mem_map.mp hmem
      have := (mem_candidates hrow).1
      rw [hnone] at this
      cases this
    rw [hclaims.others id hnot, hnone] at hr'
    cases hr'

/-- A claim within the ranges is granted on every row of the queue that is due. -/
theorem claim_succeeds {owner kind : Text} {time : CanonicalTime} {lease : Duration} {limit : ℤ}
    {now : BigInt} (hnow : now.val = time.millis) (hlease : lease.val ≠ 0)
    (hends : time.millis + lease.val.val < 2 ^ 63) (hlimit : t.rows.entries.length ≤ limit)
    (hroom : ∀ id r, t.rows.get? id = some r → r.owner = owner → r.kind = kind → r.due now = true →
      r.attempts.val + 1 < 2 ^ 31) :
    ∃ t' items claimUntil, t.claim owner kind time lease limit = .ok (t', items, claimUntil) ∧
      ∀ id r, t.rows.get? id = some r → r.owner = owner → r.kind = kind → r.due now = true →
        ∃ item ∈ items, item.id = id := by
  have hcandidates : ∀ e ∈ t.candidates owner kind now limit.toNat, e.2.attempts.val + 1 < 2 ^ 31 :=
    fun e he => by
      obtain ⟨hr, howner, hkind, hdue⟩ := @mem_candidates _ _ _ _ _ e.1 e.2 he
      exact hroom e.1 e.2 hr howner hkind hdue
  obtain ⟨t', taken, htaken⟩ := claimRows_succeeds ⟨time.millis + lease.val.val, hends⟩ hcandidates t
  have hwide : time.millis + lease.val.val < 2 ^ 64 := hends.trans (by decide)
  have hnonneg : ¬limit < 0 := by omega
  refine ⟨t', taken.mergeSort (fun a b => a.id ≤ b.id), ⟨time.millis + lease.val.val, hends⟩, ?_,
    fun id r hr howner hkind hdue => ?_⟩
  · refine bind_eq_ok.mpr ⟨⟨⟩, refuseIf_eq_ok.mpr (not_or.mpr ⟨hlease, hnonneg⟩), ?_⟩
    refine bind_eq_ok.mpr ⟨⟨⟨_, hwide⟩⟩, okOr_eq_ok.mpr (CanonicalTime.checkedAdd_eq_some.mpr rfl), ?_⟩
    refine bind_eq_ok.mpr ⟨⟨_, hends⟩, toI64_eq_ok.mpr rfl, bind_eq_ok.mpr ⟨now, toI64_eq_ok.mpr hnow, ?_⟩⟩
    exact bind_eq_ok.mpr ⟨_, htaken, rfl⟩
  · have hmem := mem_candidates_of_due hr howner hkind hdue
      (show t.rows.entries.length ≤ limit.toNat by omega)
    have hid : id ∈ taken.map (·.id) := by
      rw [(claimRows_eq_ok (candidates_nodup ..) htaken).ids]
      exact List.mem_map.mpr ⟨_, hmem, rfl⟩
    obtain ⟨item, hitem, hid⟩ := List.mem_map.mp hid
    exact ⟨item, List.mem_mergeSort.mpr hitem, hid⟩

/-! ### Acknowledgements -/

theorem acknowledge_change {handle : WorkHandle} {item : WorkItem} {now available : CanonicalTime}
    {status : WorkStatus} {failure : Option WorkFailure} (hstatus : status ≠ .running)
    (h : t.acknowledge handle item now status available failure = .ok (t', o)) :
    t.Change o t' ∧ (o.settled = none → t' = t) := by
  obtain ⟨⟨t₁, effective⟩, hfinish, heq⟩ := map_eq_ok.mp h
  cases heq
  have hidle : t.Change (.acknowledged item now false) t ∧
      ((WorkOutcome.acknowledged item now false).settled = none → t = t) :=
    ⟨.idle rfl le_rfl le_rfl (fun _ => rfl) rfl, fun _ => rfl⟩
  unfold finish at hfinish
  by_cases howned : handle.owned item ≠ some item.owner
  · rw [if_pos howned] at hfinish
    cases hfinish
    exact hidle
  rw [if_neg howned] at hfinish
  simp only [bind_eq_ok] at hfinish
  obtain ⟨availableAt, -, time, htime, hfinish⟩ := hfinish
  split at hfinish
  · cases hfinish
    exact hidle
  · next row hrow =>
    by_cases hruns : row.runs item time = true
    · rw [if_pos hruns] at hfinish
      cases hfinish
      refine ⟨.single hrow (.settled rfl rfl (toI64_eq_ok.mp htime) hruns hstatus) (fun _ => rfl)
        fun claim h => ?_, fun h => by cases h⟩
      cases h
      rfl
    · rw [if_neg hruns] at hfinish
      cases hfinish
      exact hidle

theorem resume_change {owner kind : Text} {id : ℕ} {now : CanonicalTime} {effective : Bool}
    (h : t.resume owner kind id now = .ok (t', effective)) : t.Change (.resumed effective) t' := by
  unfold resume at h
  obtain ⟨availableAt, -, h⟩ := bind_eq_ok.mp h
  split at h
  · cases h
    exact .idle rfl le_rfl le_rfl (fun _ => rfl) rfl
  · next row hrow =>
    split_ifs at h with hblocked
    · cases h
      exact .single hrow (.resumed rfl hblocked.2.2) (fun _ => rfl) fun claim h => by cases h
    · cases h
      exact .idle rfl le_rfl le_rfl (fun _ => rfl) rfl

/-- Every statement is a change of the table. -/
theorem call_change {c : WorkCall} (hfresh : t.rows.get? t.nextId = none) (h : t.call c = .ok (t', o)) :
    t.Change o t' := by
  cases c with
  | enqueue key source payload now =>
    obtain ⟨t₁, hinsert, heq⟩ := map_eq_ok.mp h
    cases heq
    unfold enqueue at hinsert
    split at hinsert
    · next queue _ => exact insert_change ⟨.relationship key queue, rfl, rfl⟩ hfresh hinsert
    · cases hinsert
  | enqueueDeployment source payload now =>
    obtain ⟨t₁, hinsert, heq⟩ := map_eq_ok.mp h
    cases heq
    unfold enqueueDeployment at hinsert
    split at hinsert
    · next queue _ => exact insert_change ⟨.deployment queue, rfl, rfl⟩ hfresh hinsert
    · cases hinsert
  | claimWork queue now lease limit =>
    obtain ⟨⟨t₁, items, claimUntil⟩, hclaim, heq⟩ := map_eq_ok.mp h
    cases heq
    exact claim_change (claim_eq_ok hclaim)
  | completeWork handle item now => exact (acknowledge_change (by simp) h).1
  | retryWork handle item now failure =>
    obtain ⟨available, -, h⟩ := bind_eq_ok.mp h
    exact (acknowledge_change (by simp) h).1
  | blockWork handle item now failure => exact (acknowledge_change (by simp) h).1
  | resumeWork queue id now =>
    obtain ⟨⟨t₁, effective⟩, hresume, heq⟩ := map_eq_ok.mp h
    cases heq
    exact resume_change hresume
  | drawToken =>
    cases h
    exact .idle rfl le_rfl (Nat.le_succ _) (fun _ => rfl) rfl

end WorkTable
end CsMail
