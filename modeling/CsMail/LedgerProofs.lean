import CsMail.Ledger

/-! What the ledger guarantees.

An applied batch adds exactly its net movement to every account, and the ledger it
leaves is conserved (`apply_spec`). A balanced batch whose transfers a
conserved ledger can pay one after the other is refused for an arithmetic bound or
not at all (`apply_funded`), and with room below the bounds it is applied (`apply_succeeds`). -/
namespace CsMail
open Library Journal

theorem i128_eq_some {x y : Int} : i128 x = some y ↔ (-2 ^ 127 ≤ x ∧ x < 2 ^ 127) ∧ x = y := by
  unfold i128
  split_ifs with h
  · simp only [Option.some.injEq, h, true_and]
  · simp only [h, false_and]

/-! ### Batches as journal entries -/

def Transfer.entry (t : Transfer) : Entry Account := ⟨t.fromAccount, t.toAccount, t.amount.units⟩

namespace LedgerBatch

def entries (b : LedgerBatch) : List (Entry Account) := b.transfers.map Transfer.entry

/-- What the batch adds to an account. -/
def net (b : LedgerBatch) (a : Account) : Int := Journal.net b.entries a

@[simp] theorem entries_empty : (∅ : LedgerBatch).entries = [] := rfl

@[simp] theorem isBalanced_empty : (∅ : LedgerBatch).isBalanced = true := rfl

@[simp] theorem net_empty (a : Account) : (∅ : LedgerBatch).net a = 0 := rfl

@[simp] theorem net_transfer (b : LedgerBatch) (f t : Account) (m : Money) (a : Account) :
    (b.transfer f t m).net a =
      b.net a + (if t = a then (m.units : Int) else 0) - (if f = a then (m.units : Int) else 0) := by
  by_cases hzero : m.isZero = true
  · simp [transfer, hzero, Money.isZero_iff.mp hzero]
  · simp only [net, entries, transfer, hzero, Bool.false_eq_true, if_false, List.map_append,
      net_append, List.map_cons, List.map_nil, net_cons, net_nil, Transfer.entry]
    split_ifs <;> omega

theorem outflow_transfer (b : LedgerBatch) (f t : Account) (m : Money) (a : Account) :
    outflow (b.transfer f t m).entries a = outflow b.entries a + if f = a then m.units else 0 := by
  by_cases hzero : m.isZero = true
  · simp [transfer, hzero, Money.isZero_iff.mp hzero]
  · simp [entries, transfer, hzero, Transfer.entry]

theorem inflow_transfer (b : LedgerBatch) (f t : Account) (m : Money) (a : Account) :
    inflow (b.transfer f t m).entries a = inflow b.entries a + if t = a then m.units else 0 := by
  by_cases hzero : m.isZero = true
  · simp [transfer, hzero, Money.isZero_iff.mp hzero]
  · simp [entries, transfer, hzero, Transfer.entry]

theorem length_transfer_le (b : LedgerBatch) (f t : Account) (m : Money) :
    (b.transfer f t m).transfers.length ≤ b.transfers.length + 1 := by
  unfold transfer
  split_ifs <;> simp

theorem isBalanced_transfer {b : LedgerBatch} {f t : Account} (m : Money) (h : f ≠ t)
    (hb : b.isBalanced = true) : (b.transfer f t m).isBalanced = true := by
  unfold transfer isBalanced at *
  split_ifs <;> simp_all

theorem isBalanced_iff {b : LedgerBatch} :
    b.isBalanced = true ↔ ∀ t ∈ b.transfers, t.fromAccount ≠ t.toAccount := by
  simp [isBalanced]

/-- The batch carries the balances `sheet` to `sheet'`: every transfer moves money and
finds it, and no balance leaves the signed range on the way. -/
structure Carries (b : LedgerBatch) (sheet sheet' : Account → Int) : Prop where
  moves : ∀ t ∈ b.transfers, t.amount.isZero = false
  balanced : b.isBalanced = true
  funded : Funded Account.permitsNegative sheet b.entries
  within : Within u64Max sheet b.entries
  posted : ∀ a, sheet' a = sheet a + b.net a

theorem Carries.empty {sheet : Account → Int}
    (h : ∀ a, -(u64Max : Int) ≤ sheet a ∧ sheet a ≤ u64Max) : Carries ∅ sheet sheet :=
  ⟨nofun, rfl, trivial, h, fun a => by rw [net_empty, add_zero]⟩

/-- One more transfer at the end of a batch. -/
theorem Carries.transfer {b : LedgerBatch} {sheet middle sheet' : Account → Int} {f t : Account}
    {m : Money} (h : b.Carries sheet middle) (hne : f ≠ t)
    (hheld : f.permitsNegative = false → m.units ≤ middle f)
    (hsheet' : ∀ a, sheet' a = post middle ⟨f, t, m.units⟩ a)
    (hafter : ∀ a, -(u64Max : Int) ≤ sheet' a ∧ sheet' a ≤ u64Max) :
    (b.transfer f t m).Carries sheet sheet' := by
  have hposted : ∀ a, sheet' a = sheet a + (b.transfer f t m).net a := fun a => by
    rw [hsheet', post, net_transfer, h.posted a]
    split_ifs <;> simp only [Int.natCast_zero] <;> omega
  refine ⟨?_, isBalanced_transfer m hne h.balanced, ?_, ?_, hposted⟩
  · unfold LedgerBatch.transfer
    split_ifs with hzero
    · exact h.moves
    · intro t' ht'
      rcases List.mem_append.mp ht' with ht' | ht'
      · exact h.moves t' ht'
      · rw [List.mem_singleton.mp ht']
        exact Bool.eq_false_iff.mpr hzero
  · unfold LedgerBatch.transfer
    split_ifs
    · exact h.funded
    · rw [entries, List.map_append]
      exact h.funded.concat fun hp => (hheld hp).trans_eq (h.posted f)
  · by_cases hzero : m.isZero = true
    · rw [LedgerBatch.transfer, if_pos hzero]
      exact h.within
    · have hentries : (b.transfer f t m).entries = b.entries ++ [⟨f, t, m.units⟩] := by
        rw [LedgerBatch.transfer, if_neg hzero, entries, List.map_append]
        rfl
      rw [hentries]
      refine h.within.concat fun a => ?_
      rw [← hentries, postAll_apply]
      exact hposted a ▸ hafter a

/-- The accounts pay for the batch, one transfer after the other. -/
structure PaidBy (b : LedgerBatch) (sheet : Account → Int) : Prop where
  balanced : b.isBalanced = true
  funded : Funded Account.permitsNegative sheet b.entries

theorem PaidBy.empty (sheet : Account → Int) : (∅ : LedgerBatch).PaidBy sheet := ⟨rfl, trivial⟩

theorem PaidBy.transfer {b : LedgerBatch} {sheet : Account → Int} {f t : Account} {m : Money}
    (h : b.PaidBy sheet) (hne : f ≠ t) (hheld : f.permitsNegative = false → m.units ≤ sheet f + b.net f) :
    (b.transfer f t m).PaidBy sheet := by
  refine ⟨isBalanced_transfer m hne h.balanced, ?_⟩
  unfold LedgerBatch.transfer
  split_ifs
  · exact h.funded
  · rw [entries, List.map_append]
    exact h.funded.concat hheld

end LedgerBatch

namespace LedgerView

/-! ### Conserved ledgers -/

structure Conserved (v : LedgerView) : Prop where
  distinct : (v.balances.map Prod.fst).Nodup
  nonneg : ∀ e ∈ v.balances, e.1.permitsNegative = false → 0 ≤ e.2
  bounded : ∀ e ∈ v.balances, -(u64Max : Int) ≤ e.2 ∧ e.2 ≤ u64Max
  total : (v.balances.map Prod.snd).sum = 0

theorem checkBalances_eq_ok {accounts : List Account} {l : List (Account × Int)} :
    checkBalances accounts l = .ok ⟨⟩ ↔
      (l.map Prod.fst).Nodup ∧ (∀ e ∈ l, e.1 ∉ accounts) ∧
      (∀ e ∈ l, e.1.permitsNegative = false → 0 ≤ e.2) ∧
      ∀ e ∈ l, -(u64Max : Int) ≤ e.2 ∧ e.2 ≤ u64Max := by
  induction l generalizing accounts with
  | nil => simp [checkBalances]
  | cons head rest ih =>
    obtain ⟨account, value⟩ := head
    simp only [checkBalances, bind_eq_ok, refuseIf_eq_ok, exists_const, ih, List.map_cons, List.nodup_cons,
      List.forall_mem_cons, not_or]
    constructor
    · rintro ⟨⟨hnew, hsign⟩, ⟨hhigh, hlow⟩, hnodup, hrest, hnonneg, hbounded⟩
      refine ⟨⟨fun hmem => ?_, hnodup⟩, ⟨hnew, fun e he hmem => hrest e he (by simp [hmem])⟩,
        ⟨by grind, hnonneg⟩, ⟨by omega, hbounded⟩⟩
      obtain ⟨e, he, rfl⟩ := List.mem_map.mp hmem
      exact hrest e he (by simp)
    · rintro ⟨⟨hfresh, hnodup⟩, ⟨hnew, hrest⟩, ⟨hsign, hnonneg⟩, ⟨hrange, hbounded⟩⟩
      refine ⟨⟨hnew, by grind⟩, by omega, hnodup, fun e he hmem => ?_, hnonneg, hbounded⟩
      rcases List.mem_cons.mp hmem with heq | hmem
      · exact hfresh (heq ▸ List.mem_map_of_mem he)
      · exact hrest e he hmem

theorem checkBalances_eq_error {accounts : List Account} {l : List (Account × Int)} {e : LedgerError}
    (hnodup : (l.map Prod.fst).Nodup) (hnew : ∀ e ∈ l, e.1 ∉ accounts)
    (hnonneg : ∀ e ∈ l, e.1.permitsNegative = false → 0 ≤ e.2)
    (h : checkBalances accounts l = .error e) : e = .arithmeticOverflow := by
  induction l generalizing accounts with
  | nil => cases h
  | cons head rest ih =>
    obtain ⟨account, value⟩ := head
    simp only [List.map_cons, List.nodup_cons, List.forall_mem_cons] at hnodup hnew hnonneg
    simp only [checkBalances, bind_eq_error, refuseIf_eq_error, refuseIf_eq_ok, exists_const] at h
    rcases h with ⟨hbad, -⟩ | ⟨-, ⟨-, rfl⟩ | ⟨-, hrest⟩⟩
    · grind
    · rfl
    · exact ih hnodup.2 (by grind) hnonneg.2 hrest

theorem foldlM_addBalance {l : List (Account × Int)} {acc total : Int}
    (h : l.foldlM addBalance acc = .ok total) : total = acc + (l.map Prod.snd).sum := by
  induction l generalizing acc with
  | nil => simpa [pure, Except.pure, eq_comm] using h
  | cons head rest ih =>
    simp only [List.foldlM_cons, bind_eq_ok, addBalance, okOr_eq_ok, i128_eq_some] at h
    obtain ⟨next, ⟨-, rfl⟩, hrest⟩ := h
    rw [ih hrest, List.map_cons, List.sum_cons, Int.add_assoc]

theorem foldlM_addBalance_error {l : List (Account × Int)} {acc : Int} {e : LedgerError}
    (h : l.foldlM addBalance acc = .error e) : e = .arithmeticOverflow := by
  induction l generalizing acc with
  | nil => cases h
  | cons head rest ih =>
    simp only [List.foldlM_cons, bind_eq_error, addBalance, okOr_eq_error] at h
    rcases h with ⟨-, rfl⟩ | ⟨next, -, hrest⟩
    · rfl
    · exact ih hrest

theorem conserved_of_totalValue {v : LedgerView} {m : Money} (h : v.totalValue = .ok m) :
    v.Conserved := by
  simp only [totalValue, bind_eq_ok, refuseIf_eq_ok, exists_const, ne_eq, Decidable.not_not] at h
  obtain ⟨⟨⟩, hcheck, sum, hsum, hzero, -⟩ := h
  obtain ⟨hnodup, -, hnonneg, hbounded⟩ := checkBalances_eq_ok.mp hcheck
  refine ⟨hnodup, hnonneg, hbounded, ?_⟩
  have := foldlM_addBalance hsum
  omega

theorem totalValue_eq_zero {v : LedgerView} {m : Money} (h : v.totalValue = .ok m) : m = .zero := by
  simp only [totalValue, bind_eq_ok, Except.ok.injEq] at h
  obtain ⟨-, -, -, -, -, -, rfl⟩ := h
  rfl

theorem totalValue_error {v : LedgerView} {e : LedgerError}
    (hnodup : (v.balances.map Prod.fst).Nodup)
    (hnonneg : ∀ e ∈ v.balances, e.1.permitsNegative = false → 0 ≤ e.2)
    (htotal : (v.balances.map Prod.snd).sum = 0) (h : v.totalValue = .error e) :
    e = .arithmeticOverflow := by
  simp only [totalValue, bind_eq_error, refuseIf_eq_error, refuseIf_eq_ok, exists_const] at h
  rcases h with hcheck | ⟨-, -, hfold | ⟨sum, hsum, ⟨hne, -⟩ | ⟨-, hfalse⟩⟩⟩
  · exact checkBalances_eq_error hnodup (by simp) hnonneg hcheck
  · exact foldlM_addBalance_error hfold
  · have := foldlM_addBalance hsum
    omega
  · cases hfalse

theorem foldlM_addBalance_succeeds {l : List (Account × Int)} {acc : Int}
    (hbounded : ∀ e ∈ l, -(u64Max : Int) ≤ e.2 ∧ e.2 ≤ u64Max)
    (hlow : -2 ^ 127 ≤ acc - l.length * u64Max) (hhigh : acc + l.length * u64Max < 2 ^ 127) :
    ∃ total, l.foldlM addBalance acc = .ok total := by
  induction l generalizing acc with
  | nil => exact ⟨acc, rfl⟩
  | cons head rest ih =>
    have hhead := hbounded head (List.mem_cons_self ..)
    simp only [u64Max, List.length_cons] at *
    have hnext : i128 (acc + head.2) = some (acc + head.2) := i128_eq_some.mpr ⟨by omega, rfl⟩
    obtain ⟨total, htotal⟩ := @ih (acc + head.2)
      (fun e he => hbounded e (List.mem_cons_of_mem _ he)) (by omega) (by omega)
    refine ⟨total, ?_⟩
    simp only [List.foldlM_cons, addBalance, hnext, okOr, ok_bind]
    exact htotal

theorem totalValue_succeeds {v : LedgerView} (h : v.Conserved)
    (hcount : v.balances.length < 2 ^ 60) : v.totalValue = .ok .zero := by
  have hcheck : checkBalances [] v.balances = .ok ⟨⟩ :=
    checkBalances_eq_ok.mpr ⟨h.distinct, by simp, h.nonneg, h.bounded⟩
  have hsmall : (v.balances.length : Int) * u64Max < 2 ^ 127 := by
    unfold u64Max
    omega
  obtain ⟨total, hsum⟩ := @foldlM_addBalance_succeeds _ 0 h.bounded (by omega) (by omega)
  have htotal : total = 0 := by
    have := foldlM_addBalance hsum
    have := h.total
    omega
  simp only [totalValue, hcheck, hsum, htotal, ok_bind, refuseIf, ne_eq, not_true_eq_false, if_false]

/-! ### One transfer -/

/-- The balances as a journal's sheet. -/
def sheet (balances : SortedMap Account Int) (a : Account) : Int := (balances.get? a).getD 0

theorem signedBalance_fromBalances (revision : U64) (unit : SettlementUnit)
    (balances : SortedMap Account Int) (a : Account) :
    (fromBalances revision unit balances).signedBalance a = sheet balances a := by
  unfold signedBalance sheet SortedMap.get? fromBalances
  rw [SortedMap.lookup_eq_find? (p := fun e => e.1 = a) _ (by simp)]

theorem sheet_ofList {v : LedgerView} (h : v.Conserved) :
    sheet (SortedMap.ofList v.balances) = v.signedBalance := by
  funext a
  unfold sheet signedBalance
  rw [SortedMap.get?_ofList h.distinct, SortedMap.lookup_eq_find? (p := fun e => e.1 = a) _ (by simp)]

theorem sheet_insert_insert {balances : SortedMap Account Int} {f t : Account} (h : f ≠ t)
    (amount : ℕ) :
    sheet ((balances.insert f (sheet balances f - amount)).insert t (sheet balances t + amount)) =
      post (sheet balances) ⟨f, t, amount⟩ := by
  funext a
  simp only [sheet, post, SortedMap.get?_insert]
  by_cases hf : f = a <;> by_cases ht : t = a
  · exact absurd (hf.trans ht.symm) h
  · simp [hf, ht, Ne.symm ht]
  · simp [hf, ht]
  · simp [hf, ht, Ne.symm hf, Ne.symm ht]

theorem sumBy_insert_insert {balances : SortedMap Account Int} {f t : Account} (h : f ≠ t)
    (amount : ℕ) :
    ((balances.insert f (sheet balances f - amount)).insert t
      (sheet balances t + amount)).sumBy id = balances.sumBy id := by
  have hfirst := SortedMap.sumBy_insert balances f (sheet balances f - amount) id
  have hsecond := SortedMap.sumBy_insert (balances.insert f (sheet balances f - amount)) t
    (sheet balances t + amount) id
  rw [SortedMap.get?_insert_ne _ _ (Ne.symm h)] at hsecond
  simp only [id_eq, Option.map_id_fun, sheet] at hfirst hsecond ⊢
  omega

/-- An applied transfer moves its amount and nothing else. -/
theorem applyTransfer_spec {balances balances' : SortedMap Account Int} {t : Transfer}
    (hne : t.fromAccount ≠ t.toAccount) (h : applyTransfer balances t = .ok balances') :
    sheet balances' = post (sheet balances) t.entry ∧ balances'.sumBy id = balances.sumBy id := by
  unfold applyTransfer at h
  simp only [bind_eq_ok, okOr_eq_ok, i128_eq_some] at h
  obtain ⟨remaining, ⟨-, rfl⟩, h⟩ := h
  split_ifs at h
  · simp at h
  · simp only [bind_eq_ok, okOr_eq_ok, i128_eq_some, refuseIf_eq_ok, exists_const] at h
    obtain ⟨destination, ⟨-, rfl⟩, -, h⟩ := h
    cases h
    exact ⟨sheet_insert_insert hne _, sumBy_insert_insert hne _⟩

/-- A covered transfer meets no refusal but an arithmetic bound. -/
theorem applyTransfer_error {balances : SortedMap Account Int} {t : Transfer} {e : LedgerError}
    (hheld : t.fromAccount.permitsNegative = false → t.amount.units ≤ sheet balances t.fromAccount)
    (h : applyTransfer balances t = .error e) : e = .arithmeticOverflow := by
  unfold applyTransfer at h
  simp only [bind_eq_error, okOr_eq_error, okOr_eq_ok, i128_eq_some] at h
  rcases h with ⟨-, rfl⟩ | ⟨remaining, ⟨-, rfl⟩, h⟩
  · rfl
  · split_ifs at h with hshort
    · have := hheld hshort.2
      have := hshort.1
      simp only [sheet] at *
      omega
    · simp only [bind_eq_error, okOr_eq_error, okOr_eq_ok, refuseIf_eq_error, refuseIf_eq_ok,
        exists_const, reduceCtorEq, and_false, or_false] at h
      grind

theorem applyTransfer_length {balances balances' : SortedMap Account Int} {t : Transfer}
    (h : applyTransfer balances t = .ok balances') :
    balances'.entries.length ≤ balances.entries.length + 2 := by
  unfold applyTransfer at h
  simp only [bind_eq_ok, okOr_eq_ok] at h
  obtain ⟨remaining, -, h⟩ := h
  split_ifs at h
  · simp at h
  · simp only [bind_eq_ok, okOr_eq_ok, refuseIf_eq_ok, exists_const] at h
    obtain ⟨destination, -, -, h⟩ := h
    cases h
    exact (SortedMap.length_insert_le _ _ _).trans
      (Nat.succ_le_succ (SortedMap.length_insert_le _ _ _))

theorem applyTransfer_succeeds {balances : SortedMap Account Int} {t : Transfer}
    (hne : t.fromAccount ≠ t.toAccount)
    (hheld : t.fromAccount.permitsNegative = false → t.amount.units ≤ sheet balances t.fromAccount)
    (hafter : ∀ a, -(u64Max : Int) ≤ post (sheet balances) t.entry a ∧
      post (sheet balances) t.entry a ≤ u64Max) :
    ∃ balances', applyTransfer balances t = .ok balances' := by
  have hpayer := hafter t.fromAccount
  have hpayee := hafter t.toAccount
  simp only [post, Transfer.entry, if_true, hne, Ne.symm hne, if_false] at hpayer hpayee
  unfold u64Max sheet at *
  unfold applyTransfer
  have hremaining : i128 ((balances.get? t.fromAccount).getD 0 - t.amount.units) =
      some ((balances.get? t.fromAccount).getD 0 - t.amount.units) :=
    i128_eq_some.mpr ⟨by omega, rfl⟩
  have hdestination : i128 ((balances.get? t.toAccount).getD 0 + t.amount.units) =
      some ((balances.get? t.toAccount).getD 0 + t.amount.units) :=
    i128_eq_some.mpr ⟨by omega, rfl⟩
  have henough : ¬((balances.get? t.fromAccount).getD 0 - t.amount.units < 0 ∧
      t.fromAccount.permitsNegative = false) := fun hshort => by
    have := hheld hshort.2
    omega
  simp only [hremaining, hdestination, okOr, ok_bind, henough, if_false, bind_eq_ok, refuseIf_eq_ok,
    exists_const]
  refine ⟨_, ?_, rfl⟩
  rintro (⟨-, hover⟩ | hunder) <;> simp only [u64Max] at * <;> omega

/-! ### Batches -/

theorem applyTransfers_spec {transfers : List Transfer} {balances balances' : SortedMap Account Int}
    (hne : ∀ t ∈ transfers, t.fromAccount ≠ t.toAccount)
    (h : transfers.foldlM applyTransfer balances = .ok balances') :
    sheet balances' = postAll (sheet balances) (transfers.map Transfer.entry) ∧
      balances'.sumBy id = balances.sumBy id ∧
      balances'.entries.length ≤ balances.entries.length + 2 * transfers.length := by
  induction transfers generalizing balances with
  | nil =>
    simp only [List.foldlM_nil, pure_eq_ok] at h
    subst h
    exact ⟨rfl, rfl, by simp⟩
  | cons t rest ih =>
    simp only [List.foldlM_cons, bind_eq_ok] at h
    obtain ⟨middle, hfirst, hrest⟩ := h
    obtain ⟨hsheet, hsum⟩ := applyTransfer_spec (hne t (List.mem_cons_self ..)) hfirst
    obtain ⟨hsheet', hsum', hlength⟩ := ih (fun u hu => hne u (List.mem_cons_of_mem _ hu)) hrest
    refine ⟨?_, hsum'.trans hsum, ?_⟩
    · rw [hsheet', hsheet]
      rfl
    · have := applyTransfer_length hfirst
      simp only [List.length_cons]
      omega

theorem applyTransfers_error {transfers : List Transfer} {balances : SortedMap Account Int}
    {e : LedgerError} (hne : ∀ t ∈ transfers, t.fromAccount ≠ t.toAccount)
    (hfunded : Funded Account.permitsNegative (sheet balances) (transfers.map Transfer.entry))
    (h : transfers.foldlM applyTransfer balances = .error e) : e = .arithmeticOverflow := by
  induction transfers generalizing balances with
  | nil => simp at h
  | cons t rest ih =>
    simp only [List.foldlM_cons, bind_eq_error] at h
    rcases h with hfirst | ⟨middle, hfirst, hrest⟩
    · exact applyTransfer_error hfunded.1 hfirst
    · refine ih (fun u hu => hne u (List.mem_cons_of_mem _ hu)) ?_ hrest
      rw [(applyTransfer_spec (hne t (List.mem_cons_self ..)) hfirst).1]
      exact hfunded.2

theorem applyTransfers_succeeds {transfers : List Transfer} {balances : SortedMap Account Int}
    (hne : ∀ t ∈ transfers, t.fromAccount ≠ t.toAccount)
    (hfunded : Funded Account.permitsNegative (sheet balances) (transfers.map Transfer.entry))
    (hwithin : Within u64Max (sheet balances) (transfers.map Transfer.entry)) :
    ∃ balances', transfers.foldlM applyTransfer balances = .ok balances' := by
  induction transfers generalizing balances with
  | nil => exact ⟨balances, rfl⟩
  | cons t rest ih =>
    have hhead := hne t (List.mem_cons_self ..)
    obtain ⟨middle, hfirst⟩ := applyTransfer_succeeds hhead hfunded.1 hwithin.2.start
    obtain ⟨hsheet, -⟩ := applyTransfer_spec hhead hfirst
    obtain ⟨balances', hrest⟩ := ih (fun u hu => hne u (List.mem_cons_of_mem _ hu))
      (hsheet ▸ hfunded.2) (hsheet ▸ hwithin.2)
    exact ⟨balances', by simp only [List.foldlM_cons, hfirst, ok_bind, hrest]⟩

theorem sheet_of_mem {balances : SortedMap Account Int} {e : Account × Int}
    (h : e ∈ balances.entries) : sheet balances e.1 = e.2 := by
  rw [sheet, SortedMap.mem_entries.mp h]
  rfl

/-- A ledger whose balances are nonnegative where they must be, and sum to zero. -/
theorem conserved_fromBalances {revision : U64} {unit : SettlementUnit}
    {balances : SortedMap Account Int}
    (hnonneg : ∀ a, a.permitsNegative = false → 0 ≤ sheet balances a)
    (hbounded : ∀ a, -(u64Max : Int) ≤ sheet balances a ∧ sheet balances a ≤ u64Max)
    (htotal : balances.sumBy id = 0) : (fromBalances revision unit balances).Conserved where
  distinct := SortedMap.keys_nodup balances
  nonneg e he hp := sheet_of_mem he ▸ hnonneg e.1 hp
  bounded e he := sheet_of_mem he ▸ hbounded e.1
  total := by simpa [SortedMap.sumBy, SortedMap.values, fromBalances] using htotal

theorem Conserved.signedBalance_nonneg {v : LedgerView} (h : v.Conserved) {a : Account}
    (hp : a.permitsNegative = false) : 0 ≤ v.signedBalance a := by
  unfold signedBalance
  cases hfind : v.balances.find? fun e => e.1 = a with
  | none => exact le_rfl
  | some e =>
    have hkey : e.1 = a := by simpa using List.find?_some hfind
    exact h.nonneg e (List.mem_of_find?_eq_some hfind) (hkey ▸ hp)

theorem Conserved.signedBalance_bounded {v : LedgerView} (h : v.Conserved) (a : Account) :
    -(u64Max : Int) ≤ v.signedBalance a ∧ v.signedBalance a ≤ u64Max := by
  unfold signedBalance
  cases hfind : v.balances.find? fun e => e.1 = a with
  | none => simp
  | some e => exact h.bounded e (List.mem_of_find?_eq_some hfind)

theorem Conserved.units_balance {v : LedgerView} (h : v.Conserved) {a : Account}
    (hp : a.permitsNegative = false) : ((v.balance a).units : Int) = v.signedBalance a := by
  have hnonneg := h.signedBalance_nonneg hp
  have hbounded := (h.signedBalance_bounded a).2
  unfold u64Max at hbounded
  have hfits : 0 ≤ v.signedBalance a ∧ (v.signedBalance a).toNat < 2 ^ 64 := by omega
  rw [balance, max_eq_left hnonneg, u64OfInt, dif_pos hfits]
  exact Int.toNat_of_nonneg hnonneg

theorem Conserved.sumBy_ofList {v : LedgerView} (h : v.Conserved) :
    (SortedMap.ofList v.balances).sumBy id = 0 := by
  rw [SortedMap.sumBy_ofList h.distinct]
  simpa using h.total

/-- **An applied batch.** The next ledger is conserved and differs by the batch's net
movement in every account. -/
theorem apply_spec {v v' : LedgerView} {b : LedgerBatch} (h : v.apply b = .ok v') :
    v.Conserved ∧ v'.Conserved ∧ v'.unit = v.unit ∧ v'.revision.val = v.revision.val + 1 ∧
      ∀ a, v'.signedBalance a = v.signedBalance a + b.net a := by
  simp only [apply, bind_eq_ok, refuseIf_eq_ok, okOr_eq_ok, exists_const, Bool.not_eq_false,
    Checked.succ_eq_some] at h
  obtain ⟨m, hbefore, hbalanced, balances, hfold, revision, hrevision, m', hafter, h⟩ := h
  cases h
  have hconserved := conserved_of_totalValue hbefore
  obtain ⟨hsheet, -, -⟩ := applyTransfers_spec (LedgerBatch.isBalanced_iff.mp hbalanced) hfold
  refine ⟨hconserved, conserved_of_totalValue hafter, rfl, hrevision, fun a => ?_⟩
  rw [signedBalance_fromBalances, hsheet, postAll_apply, sheet_ofList hconserved]
  rfl

theorem apply_totalValue {v v' : LedgerView} {b : LedgerBatch} (h : v.apply b = .ok v') :
    v'.totalValue = .ok .zero := by
  simp only [apply, bind_eq_ok, Except.ok.injEq] at h
  obtain ⟨m, hbefore, ⟨⟩, hbalanced, balances, hfold, revision, hrevision, m', hafter, rfl⟩ := h
  rw [hafter, totalValue_eq_zero hafter]

section
variable {v : LedgerView} {b : LedgerBatch} (hconserved : v.Conserved)
  (hbalanced : b.isBalanced = true)
  (hfunded : Funded Account.permitsNegative v.signedBalance b.entries)
include hconserved hbalanced hfunded

theorem applyTransfers_conserved {balances : SortedMap Account Int}
    (hfold : b.transfers.foldlM applyTransfer (SortedMap.ofList v.balances) = .ok balances) :
    (∀ a, a.permitsNegative = false → 0 ≤ sheet balances a) ∧ balances.sumBy id = 0 := by
  obtain ⟨hsheet, hsum, -⟩ := applyTransfers_spec (LedgerBatch.isBalanced_iff.mp hbalanced) hfold
  refine ⟨?_, hsum.trans hconserved.sumBy_ofList⟩
  rw [hsheet, sheet_ofList hconserved]
  exact hfunded.nonneg fun a hp => hconserved.signedBalance_nonneg hp

/-- A batch the obligations pay for meets no refusal but an arithmetic bound. -/
theorem apply_funded {e : LedgerError} (h : v.apply b = .error e) : e = .arithmeticOverflow := by
  have hfunded' : Funded Account.permitsNegative (sheet (SortedMap.ofList v.balances))
      (b.transfers.map Transfer.entry) := sheet_ofList hconserved ▸ hfunded
  simp only [apply, bind_eq_error, refuseIf_eq_error, refuseIf_eq_ok, okOr_eq_error, exists_const,
    hbalanced, Bool.true_eq_false, false_and, false_or, not_false_eq_true, true_and] at h
  rcases h with hbefore | ⟨-, -, hfold | ⟨balances, hfold, ⟨-, rfl⟩ | ⟨revision, -, hafter | hnext⟩⟩⟩
  · exact totalValue_error hconserved.distinct hconserved.nonneg hconserved.total hbefore
  · exact applyTransfers_error (LedgerBatch.isBalanced_iff.mp hbalanced) hfunded' hfold
  · rfl
  · obtain ⟨hnonneg, htotal⟩ := applyTransfers_conserved hconserved hbalanced hfunded hfold
    refine totalValue_error (v := fromBalances revision v.unit balances)
      (SortedMap.keys_nodup balances) (fun e he hp => sheet_of_mem he ▸ hnonneg e.1 hp) ?_ hafter
    simpa [SortedMap.sumBy, SortedMap.values, fromBalances] using htotal
  · obtain ⟨m, -, hnext⟩ := hnext
    cases hnext

/-- With room below the bounds, a batch the obligations pay for is applied. -/
theorem apply_succeeds (hwithin : Within u64Max v.signedBalance b.entries)
    (hrevision : v.revision.val + 1 < 2 ^ 64)
    (hcount : v.balances.length + 2 * b.transfers.length < 2 ^ 60) :
    ∃ v', v.apply b = .ok v' ∧
      v'.balances.length ≤ v.balances.length + 2 * b.transfers.length := by
  have hne := LedgerBatch.isBalanced_iff.mp hbalanced
  have hsheet := sheet_ofList hconserved
  obtain ⟨balances, hfold⟩ := applyTransfers_succeeds hne (hsheet ▸ hfunded) (hsheet ▸ hwithin)
  obtain ⟨hpost, -, hlength⟩ := applyTransfers_spec hne hfold
  obtain ⟨hnonneg, htotal⟩ := applyTransfers_conserved hconserved hbalanced hfunded hfold
  have hbounded : ∀ a, -(u64Max : Int) ≤ sheet balances a ∧ sheet balances a ≤ u64Max := fun a => by
    rw [hpost, hsheet]
    exact hwithin.finish a
  obtain ⟨revision, hsucc⟩ : ∃ revision, Checked.succ v.revision = some revision :=
    ⟨⟨_, hrevision⟩, Checked.succ_eq_some.mpr rfl⟩
  have hlength' : balances.entries.length ≤ v.balances.length + 2 * b.transfers.length := by
    have := SortedMap.length_ofList_le v.balances
    omega
  have hafter := totalValue_succeeds
    (@conserved_fromBalances revision v.unit balances hnonneg hbounded htotal)
    (show balances.entries.length < 2 ^ 60 by omega)
  refine ⟨fromBalances revision v.unit balances, ?_, hlength'⟩
  have hbefore := totalValue_succeeds hconserved (by omega)
  simp only [apply, hbefore, hbalanced, hfold, hsucc, hafter, okOr, refuseIf, ok_bind,
    Bool.true_eq_false, if_false]

end

end LedgerView

namespace LedgerState

theorem new_conserved (unit : SettlementUnit) : (new unit).view.Conserved :=
  LedgerView.conserved_fromBalances (fun _ _ => le_rfl) (fun _ => by simp [LedgerView.sheet]) rfl

end LedgerState
end CsMail
