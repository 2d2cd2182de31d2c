import CsMail.Ingress.Log

/-! What one transaction can do to the inbox.

Rows are never deleted, and what a command was received with never changes: a step adds one pending row,
settles one, marks one, or retires one. -/
namespace CsMail.Ingress
open Library

variable {W : Type}

/-- The columns no statement updates. -/
structure Received.SameCommand (r r' : Received) : Prop where
  aggregate : r'.aggregate = r.aggregate
  idempotencyKey : r'.idempotencyKey = r.idempotencyKey
  digest : r'.digest = r.digest
  receivedAt : r'.receivedAt = r.receivedAt
  fingerprint : r'.fingerprint = r.fingerprint
  scopes : r'.scopes = r.scopes

theorem Received.SameCommand.refl (r : Received) : r.SameCommand r := ⟨rfl, rfl, rfl, rfl, rfl, rfl⟩

theorem Received.SameCommand.trans {a b c : Received} (hab : a.SameCommand b) (hbc : b.SameCommand c) :
    a.SameCommand c :=
  ⟨hbc.aggregate.trans hab.aggregate, hbc.idempotencyKey.trans hab.idempotencyKey,
    hbc.digest.trans hab.digest, hbc.receivedAt.trans hab.receivedAt,
    hbc.fingerprint.trans hab.fingerprint, hbc.scopes.trans hab.scopes⟩

/-! ### Lookups -/

theorem Log.row_eq_some {l : Log W} {aggregate : Text} {position : BigInt} {r : Received} :
    l.row aggregate position = some r ↔ l.rows.get? position = some r ∧ r.aggregate = aggregate := by
  simp [Log.row, Option.filter_eq_some_iff]

theorem Log.providerReceipt_eq_some {l : Log W} {aggregate : Text} {position : BigInt} {r : SignedReceipt} :
    l.providerReceipt aggregate position = some r ↔
      l.providerReceipts.get? position = some (aggregate, r) := by
  simp only [Log.providerReceipt, Option.map_eq_some_iff, Option.filter_eq_some_iff, decide_eq_true_eq]
  constructor
  · rintro ⟨⟨a, r'⟩, ⟨h, rfl⟩, rfl⟩
    exact h
  · exact fun h => ⟨(aggregate, r), ⟨h, rfl⟩, rfl⟩

theorem Log.nextEligible_eq_some {l : Log W} {e : BigInt × Received} (h : l.nextEligible = some e) :
    l.rows.get? e.1 = some e.2 ∧ l.eligible e = true := by
  have hmem : e ∈ l.rows.entries.filter l.eligible := by
    rcases Option.or_eq_some_iff.mp h with hfound | ⟨-, hhead⟩
    · exact List.mem_of_find?_eq_some hfound
    · exact List.mem_of_mem_head? hhead
  rw [List.mem_filter] at hmem
  exact ⟨SortedMap.mem_entries.mp hmem.1, hmem.2⟩

theorem Log.eligible_pending {l : Log W} {e : BigInt × Received} (h : l.eligible e = true) :
    e.2.outcome = none := by
  simp only [Log.eligible, Log.head, Received.pending, Bool.and_eq_true, decide_eq_true_eq,
    Option.isNone_iff_eq_none] at h
  exact h.1.1

theorem Log.eligible_head {l : Log W} {e : BigInt × Received} (h : l.eligible e = true) {q : BigInt}
    {s : Received} (hs : l.rows.get? q = some s) (hlt : q < e.1) (hshares : s.shares e.2.scopes = true) :
    s.outcome ≠ none := by
  simp only [Log.eligible, Log.head, Bool.and_eq_true, decide_eq_true_eq] at h
  have hprior := List.all_eq_true.mp h.1.2 (q, s) (SortedMap.mem_entries.mpr hs)
  intro hnone
  simp [Received.pending, hnone, hlt, hshares] at hprior

/-! ### Transactions -/

variable {H : Handlers W} [Crypto]

/-- The command a transaction settles, if it settles one. -/
def settles (H : Handlers W) (l : Log W) : Call W → Option (BigInt × Received)
  | .processNext => l.nextEligible.filter fun e => (processRow H l.database e.1 e.2).isOk
  | _ => none

/-- The transactions of the inbox by what they do to its tables, and what they settle. -/
inductive Moved (H : Handlers W) (l : Log W) : Option (BigInt × Received) → Log W → Prop
  /-- Gates, changes elsewhere, configuration, a draw of the sequence. -/
  | kept {l' : Log W} (rows : l'.rows = l.rows) (next : l.nextPosition ≤ l'.nextPosition)
      (receipts : l'.providerReceipts = l.providerReceipts) (artifacts : l'.artifacts = l.artifacts)
      (scopes : ∀ key stored, l.ingressScopes.get? key = some stored →
        l'.ingressScopes.get? key = some stored) : Moved H l none l'
  | received {p : BigInt} {r : Received} {world : W} (position : p.val = l.nextPosition)
      (pending : r.outcome = none) (unsigned : r.receipt = none)
      (latest : ∀ q s, l.rows.get? q = some s → s.receivedAt ≤ r.receivedAt)
      (fresh : l.find r.aggregate r.idempotencyKey = none) :
      Moved H l none {l.withWorld world with
        rows := l.rows.insert p r
        nextPosition := l.nextPosition + 1}
  | settled {p : BigInt} {r r' : Received} {d : Database W} (next : l.nextEligible = some (p, r))
      (row : processRow H l.database p r = .ok (d, r')) :
      Moved H l (some (p, r)) {l with rows := l.rows.insert p r', database := d}
  | marked {p : BigInt} {r : Received} {failure : Option ProcessingFailure} {attempts : BigInt} {world : W}
      (row : l.rows.get? p = some r) (pending : r.outcome = none) :
      Moved H l none {l.withWorld world with
        rows := l.rows.insert p {r with failure, failedAttempts := attempts}}
  | signed {a : Artifact} {r : Received} (row : l.rows.get? a.position = some r)
      (payload : r.receipt = some a.receipt.payload) :
      Moved H l none {l with artifacts := l.artifacts ++ [a]}
  | stored {a : Artifact} {world : W} (artifact : a ∈ l.artifacts)
      (first : l.providerReceipts.get? a.position = none) :
      Moved H l none {l.withWorld world with
        providerReceipts := l.providerReceipts.insert a.position (a.aggregate, a.receipt)}
  | retired {p : BigInt} {r : Received} {aggregate : Text} {receipt : SignedReceipt} {world : W}
      (row : l.rows.get? p = some r) (attested : l.providerReceipts.get? p = some (aggregate, receipt)) :
      Moved H l none {l.withWorld world with rows := l.rows.insert p {r with
        evidence := none
        outcome := some (.retired receipt.payload.outcomeDigest)
        receipt := none}}

theorem Moved.unchanged (l : Log W) : Moved H l none l := .kept rfl le_rfl rfl rfl fun _ _ h => h

theorem Moved.elsewhere (l : Log W) (world : W) : Moved H l none (l.withWorld world) :=
  .kept rfl le_rfl rfl rfl fun _ _ h => h

/-! ### Processing -/

theorem processRow_settles {d d' : Database W} {p : BigInt} {r r' : Received}
    (h : processRow H d p r = .ok (d', r')) : r.SameCommand r' ∧ r'.outcome ≠ none := by
  simp only [processRow, bind_eq_ok] at h
  obtain ⟨e, _, _, _, ⟨_, outcome⟩, _, _, _, _, _, _, _, _, _, h⟩ := h
  cases h
  exact ⟨⟨rfl, rfl, rfl, rfl, rfl, rfl⟩, Option.some_ne_none outcome⟩

theorem Log.processNext_moved (l : Log W) : Moved H l (settles H l .processNext) (l.processNext H).1 := by
  unfold Log.processNext settles
  cases hnext : l.nextEligible with
  | none => exact .unchanged l
  | some e =>
    obtain ⟨p, r⟩ := e
    obtain ⟨hrow, heligible⟩ := Log.nextEligible_eq_some hnext
    dsimp only
    cases hresult : processRow H l.database p r with
    | ok result =>
      rw [Option.filter_some_pos (by rw [hresult]; rfl)]
      exact .settled hnext hresult
    | error error =>
      rw [Option.filter_some_neg (by rw [hresult]; rfl)]
      dsimp only [Log.recordFault]
      cases Checked.succ r.failedAttempts with
      | none => exact .unchanged l
      | some attempts =>
        have hmarked : Moved H l none {l.withWorld l.world with rows := l.rows.insert p {r with
            failure := some (observedFailure error)
            failedAttempts := attempts}} := .marked hrow (Log.eligible_pending heligible)
        exact hmarked

theorem Log.record_moved {l l' : Log W} {s : Submission W} {world : W} {authority : AuthoritySnapshot}
    {id : IdempotencyKey} {digest : Bytes32} {operation : Operation} {position : BigInt}
    (h : l.record H s world authority id digest operation = .ok (l', position)) : Moved H l none l' := by
  simp only [Log.record, bind_eq_ok, refuseIf_eq_ok, okOr_eq_ok] at h
  obtain ⟨receivedAt, _, _, hlatest, scopes, _, p, hp, _, hfresh, h⟩ := h
  cases h
  apply Moved.received
  case position => exact Checked.ofNat_eq_some.mp hp
  case pending => rfl
  case unsigned => rfl
  case latest =>
    intro q r hr
    rw [Log.lastReceivedAfter, Bool.not_eq_true, List.any_eq_false] at hlatest
    have hnot := hlatest r (SortedMap.mem_values.mpr ⟨q, hr⟩)
    exact not_lt.mp (by simpa using hnot)
  case fresh => rwa [Bool.not_eq_true, Option.isSome_eq_false_iff, Option.isNone_iff_eq_none] at hfresh

theorem Log.receive_moved {l l' : Log W} {s : Submission W} {handle : ReceivedCommand}
    (h : l.receive H s = .ok (l', handle)) : Moved H l none l' := by
  simp only [Log.receive, bind_eq_ok] at h
  obtain ⟨-, -, h⟩ := h
  split at h
  · simp only [bind_eq_ok] at h
    obtain ⟨-, -, h⟩ := h
    cases h
    exact .unchanged l
  · simp only [bind_eq_ok] at h
    obtain ⟨_, _, _, _, _, _, ⟨_, position⟩, hrecord, h⟩ := h
    cases h
    exact Log.record_moved hrecord

theorem Log.sign_moved {l l' : Log W} {aggregate : Text} {position : BigInt} {signer : ProviderSigner}
    (h : l.sign aggregate position signer = .ok l') : Moved H l none l' := by
  unfold Log.sign at h
  split_ifs at h
  · cases h
    exact .unchanged l
  · simp only [bind_eq_ok, okOr_eq_ok] at h
    obtain ⟨r, hrow, payload, hpayload, h⟩ := h
    obtain ⟨_, _, _, _, _, _, _, _, _, _, _, _, _, _, h⟩ := h
    cases h
    exact .signed (Log.row_eq_some.mp hrow).1 hpayload

theorem Log.store_moved {l l' : Log W} {index : ℕ} (h : l.store (H := H) index = .ok l') : Moved H l none l' := by
  simp only [Log.store, bind_eq_ok, okOr_eq_ok] at h
  obtain ⟨a, ha, h⟩ := h
  split_ifs at h with hstored
  · cases h
    exact .elsewhere l _
  · cases h
    refine .stored (List.mem_of_getElem? ha) ?_
    rwa [Bool.not_eq_true, Option.isSome_eq_false_iff, Option.isNone_iff_eq_none] at hstored

theorem Log.retire_moved {l l' : Log W} {aggregate : Text} {position : BigInt} {done : Bool}
    (h : l.retire (H := H) aggregate position = .ok (l', done)) : Moved H l none l' := by
  unfold Log.retire at h
  split_ifs at h
  · cases h
    exact .unchanged l
  · cases hreceipt : l.providerReceipt aggregate position with
    | none =>
      rw [hreceipt] at h
      cases h
      exact .unchanged l
    | some receipt =>
      rw [hreceipt] at h
      dsimp only at h
      cases hrow : l.row aggregate position with
      | none =>
        rw [hrow] at h
        cases h
        exact .elsewhere l _
      | some r =>
        rw [hrow] at h
        cases h
        exact .retired (Log.row_eq_some.mp hrow).1 (Log.providerReceipt_eq_some.mp hreceipt)

theorem Log.resume_moved {l l' : Log W} {position : BigInt} {digest : Bytes32}
    {audit : W → Except StorageError W} {changed : Bool}
    (h : l.resume position digest audit = .ok (l', changed)) : Moved H l none l' := by
  simp only [Log.resume, bind_eq_ok, okOr_eq_ok] at h
  obtain ⟨r, hrow, _, _, world, _, h⟩ := h
  split_ifs at h with hpending
  · cases h
    have hmarked : Moved H l none {l.withWorld world with rows := l.rows.insert position {r with
        failure := none
        failedAttempts := r.failedAttempts}} := .marked hrow (Option.isNone_iff_eq_none.mp hpending)
    exact hmarked
  · cases h
    exact .elsewhere l world

theorem Log.configureIngress_moved {l l' : Log W} {key : Text} {deployment : Bytes32}
    {policy : PolicySnapshot} {initialAdmission : AdmissionPolicy}
    (h : l.configureIngress key deployment policy initialAdmission = .ok l') : Moved H l none l' := by
  simp only [Log.configureIngress, bind_eq_ok] at h
  obtain ⟨_, _, _, _, h⟩ := h
  cases h
  refine .kept rfl le_rfl rfl rfl fun k stored hstored => ?_
  dsimp only
  split_ifs with hpinned
  · exact hstored
  · have hne : k ≠ key := by
      intro he
      rw [SortedMap.contains, ← he, hstored] at hpinned
      exact hpinned rfl
    rw [SortedMap.get?_insert_ne _ _ hne]
    exact hstored

theorem call_moved {l l' : Log W} {c : Call W} (h : call H l c = .ok l') : Moved H l (settles H l c) l' := by
  cases c with
  | receive s =>
    obtain ⟨⟨_, handle⟩, hreceive, rfl⟩ := map_eq_ok.mp h
    exact Log.receive_moved hreceive
  | processNext =>
    cases h
    exact l.processNext_moved
  | sign aggregate position signer => exact Log.sign_moved h
  | store index => exact Log.store_moved h
  | retire aggregate position =>
    obtain ⟨⟨_, done⟩, hretire, rfl⟩ := map_eq_ok.mp h
    exact Log.retire_moved hretire
  | resume position digest audit =>
    obtain ⟨⟨_, changed⟩, hresume, rfl⟩ := map_eq_ok.mp h
    exact Log.resume_moved hresume
  | configureIngress key deployment policy initialAdmission => exact Log.configureIngress_moved h
  | configureAdmissionPolicy key policy =>
    simp only [call, Log.configureAdmissionPolicy] at h
    split_ifs at h
    · cases h
      exact .unchanged l
    · simp only [bind_eq_ok] at h
      obtain ⟨_, _, _, _, h⟩ := h
      cases h
      exact .kept rfl le_rfl rfl rfl fun _ _ hk => hk
  | gated gate change =>
    simp only [call, bind_eq_ok] at h
    obtain ⟨_, _, world, _, h⟩ := h
    cases h
    exact .elsewhere l world
  | elsewhere change =>
    simp only [call, bind_eq_ok] at h
    obtain ⟨world, _, h⟩ := h
    cases h
    exact .elsewhere l world
  | draw =>
    cases h
    exact .kept rfl (Nat.le_succ _) rfl rfl fun _ _ hk => hk

end CsMail.Ingress
