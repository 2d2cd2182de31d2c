import CsMail.Ingress.Steps

/-! The order of receipt, and what a provider can have signed for a command.

The commands of one owner are settled in the order they were received in, whatever fails, is retried,
resumed or retired in between. A payload is attested once the row has it; from then on it may be in the
hands of several workers, and is stored by the first. Retirement leaves the digest of the one outcome
there was. -/
namespace CsMail.Ingress
open Library

/-! ### Order -/

section Order
theorem Received.shares_iff {r : Received} {scopes : List Text} :
    r.shares scopes = true ↔ ∃ scope ∈ r.scopes, scope ∈ scopes := by
  simp [Received.shares]

theorem Received.shares_comm {r s : Received} : r.shares s.scopes = true ↔ s.shares r.scopes = true := by
  rw [Received.shares_iff, Received.shares_iff]
  exact exists_congr fun scope => and_comm

variable {W : Type}

structure Ordered (l : Log W) : Prop where
  drawn : ∀ p r, l.rows.get? p = some r → p.val < l.nextPosition
  times : ∀ p q r s, l.rows.get? p = some r → l.rows.get? q = some s → p < q → r.receivedAt ≤ s.receivedAt
  /-- A settled command has no pending one of its owners before it. -/
  settled : ∀ p q r s, l.rows.get? p = some r → l.rows.get? q = some s → p < q →
    r.shares s.scopes = true → s.outcome ≠ none → r.outcome ≠ none
  identities : ∀ p q r s, l.rows.get? p = some r → l.rows.get? q = some s → r.aggregate = s.aggregate →
    r.idempotencyKey = s.idempotencyKey → p = q

theorem Ordered.start (world : W) : Ordered (Log.start world) := by
  constructor <;> intros <;> simp_all [Log.start]

/-- An update of one row that keeps its command and does not unsettle it, nor settle it early. -/
theorem Ordered.updated {l l' : Log W} (h : Ordered l) {p : BigInt} {r r' : Received}
    (hrow : l.rows.get? p = some r) (hrows : l'.rows = l.rows.insert p r')
    (hnext : l.nextPosition ≤ l'.nextPosition) (hsame : r.SameCommand r')
    (hkept : r.outcome ≠ none → r'.outcome ≠ none)
    (hready : r'.outcome ≠ none → r.outcome = none → ∀ q s, l.rows.get? q = some s → q < p →
      s.shares r.scopes = true → s.outcome ≠ none) : Ordered l' := by
  -- Every row of the new table is the same command as the row it has in the old one.
  have hold : ∀ q s', l'.rows.get? q = some s' → ∃ s, l.rows.get? q = some s ∧ s.SameCommand s' ∧
      (s.outcome ≠ none → s'.outcome ≠ none) ∧ (q ≠ p → s' = s) := by
    intro q s' hs'
    rw [hrows, SortedMap.get?_insert] at hs'
    split_ifs at hs' with hq
    · cases hs'
      exact ⟨r, hq ▸ hrow, hsame, hkept, fun hne => absurd hq hne⟩
    · exact ⟨s', hs', .refl s', id, fun _ => rfl⟩
  constructor
  · intro q s' hs'
    obtain ⟨s, hs, -⟩ := hold q s' hs'
    exact (h.drawn q s hs).trans_le hnext
  · intro a b x y hx hy hlt
    obtain ⟨x₀, hx₀, hsx, -⟩ := hold a x hx
    obtain ⟨y₀, hy₀, hsy, -⟩ := hold b y hy
    rw [hsx.receivedAt, hsy.receivedAt]
    exact h.times a b x₀ y₀ hx₀ hy₀ hlt
  · intro a b x y hx hy hlt hshares hsettled
    obtain ⟨x₀, hx₀, hsx, hxkept, -⟩ := hold a x hx
    obtain ⟨y₀, hy₀, hsy, -, hysame⟩ := hold b y hy
    have hshares₀ : x₀.shares y₀.scopes = true := by
      rw [Received.shares_iff, hsx.scopes, hsy.scopes] at hshares
      exact Received.shares_iff.mpr hshares
    refine hxkept ?_
    by_cases hy₀settled : y₀.outcome = none
    · -- Only the updated row was settled by this step, and no owner of it waits before it.
      have hb : b = p := by
        by_contra hne
        rw [hysame hne] at hsettled
        exact hsettled hy₀settled
      subst hb
      rw [hrow] at hy₀
      cases hy₀
      rw [hrows, SortedMap.get?_insert_self] at hy
      cases hy
      exact hready hsettled hy₀settled a x₀ hx₀ hlt hshares₀
    · exact h.settled a b x₀ y₀ hx₀ hy₀ hlt hshares₀ hy₀settled
  · intro a b x y hx hy hagg hid
    obtain ⟨x₀, hx₀, hsx, -⟩ := hold a x hx
    obtain ⟨y₀, hy₀, hsy, -⟩ := hold b y hy
    rw [hsx.aggregate, hsy.aggregate] at hagg
    rw [hsx.idempotencyKey, hsy.idempotencyKey] at hid
    exact h.identities a b x₀ y₀ hx₀ hy₀ hagg hid

theorem Log.find_eq_none {l : Log W} {aggregate : Text} {id : IdempotencyKey}
    (h : l.find aggregate id = none) {q : BigInt} {s : Received} (hs : l.rows.get? q = some s) :
    ¬(s.aggregate = aggregate ∧ s.idempotencyKey = id) := by
  have hnot := List.find?_eq_none.mp h (q, s) (SortedMap.mem_entries.mpr hs)
  simpa using hnot

/-- A new command comes after all others, and waits. -/
theorem Ordered.received {l l' : Log W} (h : Ordered l) {p : BigInt} {r : Received}
    (hposition : p.val = l.nextPosition) (hpending : r.outcome = none)
    (hlatest : ∀ q s, l.rows.get? q = some s → s.receivedAt ≤ r.receivedAt)
    (hfresh : l.find r.aggregate r.idempotencyKey = none) (hrows : l'.rows = l.rows.insert p r)
    (hnext : l'.nextPosition = l.nextPosition + 1) : Ordered l' := by
  have hnew : ∀ q s, l'.rows.get? q = some s → q = p ∧ s = r ∨ q < p ∧ l.rows.get? q = some s := by
    intro q s hs
    rw [hrows, SortedMap.get?_insert] at hs
    split_ifs at hs with hq
    · cases hs
      exact .inl ⟨hq, rfl⟩
    · have hlt := h.drawn q s hs
      exact .inr ⟨Fin.lt_def.mpr (by omega), hs⟩
  constructor
  · intro q s hs
    rcases hnew q s hs with ⟨rfl, -⟩ | ⟨hlt, hs⟩
    · omega
    · have := h.drawn q s hs
      omega
  · intro a b x y hx hy hlt
    rcases hnew a x hx with ⟨rfl, rfl⟩ | ⟨-, hx⟩
    · rcases hnew b y hy with ⟨rfl, rfl⟩ | ⟨hlt', -⟩
      · exact absurd hlt (lt_irrefl _)
      · exact absurd hlt (lt_asymm hlt')
    · rcases hnew b y hy with ⟨rfl, rfl⟩ | ⟨-, hy⟩
      · exact hlatest a x hx
      · exact h.times a b x y hx hy hlt
  · intro a b x y hx hy hlt hshares hsettled
    rcases hnew b y hy with ⟨rfl, rfl⟩ | ⟨hb, hy⟩
    · exact absurd hpending hsettled
    · rcases hnew a x hx with ⟨rfl, rfl⟩ | ⟨-, hx⟩
      · exact absurd hlt (lt_asymm hb)
      · exact h.settled a b x y hx hy hlt hshares hsettled
  · intro a b x y hx hy hagg hid
    rcases hnew a x hx with ⟨rfl, rfl⟩ | ⟨-, hx⟩
    · rcases hnew b y hy with ⟨rfl, rfl⟩ | ⟨-, hy⟩
      · rfl
      · exact absurd ⟨hagg.symm, hid.symm⟩ (Log.find_eq_none hfresh hy)
    · rcases hnew b y hy with ⟨rfl, rfl⟩ | ⟨-, hy⟩
      · exact absurd ⟨hagg, hid⟩ (Log.find_eq_none hfresh hx)
      · exact h.identities a b x y hx hy hagg hid

/-- A receipt is stored for settled commands alone. -/
def Log.Attests (l : Log W) : Prop :=
  ∀ p aggregate receipt, l.providerReceipts.get? p = some (aggregate, receipt) →
    ∃ r, l.rows.get? p = some r ∧ r.outcome ≠ none

theorem Ordered.moved {H : Handlers W} [Crypto] {l l' : Log W} {c : Option (BigInt × Received)} (h : Ordered l) (hattests : l.Attests)
    (hmoved : Moved H l c l') : Ordered l' := by
  cases hmoved with
  | kept rows next _ _ _ =>
    exact ⟨fun p r hr => (h.drawn p r (rows ▸ hr)).trans_le next, by rw [rows]; exact h.times,
      by rw [rows]; exact h.settled, by rw [rows]; exact h.identities⟩
  | received position pending _ latest fresh => exact h.received position pending latest fresh rfl rfl
  | settled next row =>
    obtain ⟨hrow, heligible⟩ := Log.nextEligible_eq_some next
    obtain ⟨hsame, hsettled⟩ := processRow_settles row
    exact h.updated hrow rfl le_rfl hsame (fun _ => hsettled) fun _ _ q s hs hlt hshares =>
      Log.eligible_head heligible hs hlt hshares
  | marked row pending =>
    exact h.updated row rfl le_rfl ⟨rfl, rfl, rfl, rfl, rfl, rfl⟩ id fun hsome => absurd pending hsome
  | signed _ _ => exact ⟨h.drawn, h.times, h.settled, h.identities⟩
  | stored _ _ => exact ⟨h.drawn, h.times, h.settled, h.identities⟩
  | @retired p r aggregate receipt world row attested =>
    have hsettled : r.outcome ≠ none := by
      obtain ⟨r', hr', hsome⟩ := hattests p aggregate receipt attested
      rw [row] at hr'
      cases hr'
      exact hsome
    exact h.updated row rfl le_rfl ⟨rfl, rfl, rfl, rfl, rfl, rfl⟩ (fun _ => Option.some_ne_none _)
      fun _ hpending => absurd hpending hsettled

end Order

/-! ### Receipts -/

section Receipts
variable {W : Type}

/-- The payload was signed for the position; some worker holds it, or it is stored. -/
def Log.Issued (l : Log W) (p : BigInt) (payload : ReceiptPayload) : Prop :=
  (∃ a ∈ l.artifacts, a.position = p ∧ a.receipt.payload = payload) ∨
    ∃ aggregate receipt, l.providerReceipts.get? p = some (aggregate, receipt) ∧ receipt.payload = payload

def Log.Attested (l : Log W) (p : BigInt) (payload : ReceiptPayload) : Prop :=
  (∃ r, l.rows.get? p = some r ∧ r.receipt = some payload) ∨ l.Issued p payload

theorem Log.not_attested_start (world : W) (p : BigInt) (payload : ReceiptPayload) :
    ¬(Log.start world).Attested p payload := by
  simp [Log.Attested, Log.Issued, Log.start]

/-- Signing attests nothing new: the artifact has the payload of its row. -/
theorem Log.attested_signed {l : Log W} {a : Artifact} {r : Received} (row : l.rows.get? a.position = some r)
    (payload : r.receipt = some a.receipt.payload) (p : BigInt) (x : ReceiptPayload) :
    ({l with artifacts := l.artifacts ++ [a]} : Log W).Attested p x ↔ l.Attested p x := by
  rw [Log.Attested, Log.Attested, Log.Issued, Log.Issued]
  constructor
  · rintro (hr | ⟨b, hb, hp, hx⟩ | hr)
    · exact .inl hr
    · rcases List.mem_append.mp hb with hb | hb
      · exact .inr (.inl ⟨b, hb, hp, hx⟩)
      · rw [List.mem_singleton] at hb
        subst hb hp hx
        exact .inl ⟨r, row, payload⟩
    · exact .inr (.inr hr)
  · rintro (hr | ⟨b, hb, hpx⟩ | hr)
    · exact .inl hr
    · exact .inr (.inl ⟨b, List.mem_append_left _ hb, hpx⟩)
    · exact .inr (.inr hr)

/-- Storing attests nothing new: a worker held what is stored. -/
theorem Log.attested_stored {l : Log W} {a : Artifact} (artifact : a ∈ l.artifacts)
    (first : l.providerReceipts.get? a.position = none) (world : W) (p : BigInt) (x : ReceiptPayload) :
    ({l.withWorld world with
      providerReceipts := l.providerReceipts.insert a.position (a.aggregate, a.receipt)} : Log W).Attested p x ↔
      l.Attested p x := by
  rw [Log.Attested, Log.Attested, Log.Issued, Log.Issued]
  refine or_congr_right ?_
  constructor
  · rintro (hr | ⟨aggregate, receipt, hreceipt, hx⟩)
    · exact .inl hr
    · rw [SortedMap.get?_insert] at hreceipt
      split_ifs at hreceipt with hp
      · cases hreceipt
        exact .inl ⟨a, artifact, hp.symm, hx⟩
      · exact .inr ⟨aggregate, receipt, hreceipt, hx⟩
  · rintro (hr | ⟨aggregate, receipt, hreceipt, hx⟩)
    · exact .inl hr
    · refine .inr ⟨aggregate, receipt, ?_, hx⟩
      have hne : p ≠ a.position := by
        rintro rfl
        rw [first] at hreceipt
        cases hreceipt
      rw [SortedMap.get?_insert_ne _ _ hne]
      exact hreceipt

/-- Where only one row changes, so does only what it attests. -/
theorem Log.attested_insert {l l' : Log W} {p : BigInt} {r' : Received}
    (hrows : l'.rows = l.rows.insert p r') (hissued : ∀ q payload, l'.Issued q payload ↔ l.Issued q payload)
    (q : BigInt) (payload : ReceiptPayload) :
    l'.Attested q payload ↔ if q = p then r'.receipt = some payload ∨ l.Issued p payload
      else l.Attested q payload := by
  rw [Log.Attested, hrows, hissued]
  by_cases hq : q = p
  · subst hq
    simp
  · rw [SortedMap.get?_insert_ne _ _ hq, if_neg hq, Log.Attested]

variable {H : Handlers W} [Crypto]

/-- What a receipt says of an outcome. -/
def ReceivedOutcome.digest (H : Handlers W) : ReceivedOutcome → Option Bytes32
  | retired digest => some digest
  | o => (H.outcomeBytes o).map Crypto.sha256

/-- The payload is about this command and this outcome of it. -/
structure ReceiptPayload.About (H : Handlers W) (payload : ReceiptPayload) (p : BigInt) (r : Received)
    (o : ReceivedOutcome) : Prop where
  command : payload.commandDigest = r.digest
  position : payload.journalPosition = Ingress.journalPosition p
  outcome : o.digest H = some payload.outcomeDigest

structure Receipted (H : Handlers W) (l : Log W) : Prop where
  settled : ∀ p payload, l.Attested p payload → ∃ r, l.rows.get? p = some r ∧ r.outcome ≠ none
  agree : ∀ p a b, l.Attested p a → l.Attested p b → a = b
  attested : ∀ p r o, l.rows.get? p = some r → r.outcome = some o →
    ∃ payload, l.Attested p payload ∧ payload.About H p r o

theorem Receipted.start (world : W) : Receipted H (Log.start world) := by
  constructor
  · exact fun p payload h => absurd h (Log.not_attested_start world p payload)
  · exact fun p a b h => absurd h (Log.not_attested_start world p a)
  · intro p r o hr
    simp [Log.start] at hr

theorem Receipted.attests {l : Log W} (h : Receipted H l) : l.Attests := fun p aggregate receipt hr =>
  h.settled p receipt.payload (.inr (.inr ⟨aggregate, receipt, hr, rfl⟩))

/-- A pending command has no receipt anywhere. -/
theorem Receipted.not_attested {l : Log W} (h : Receipted H l) {p : BigInt} {r : Received}
    (hr : l.rows.get? p = some r) (hpending : r.outcome = none) (payload : ReceiptPayload) :
    ¬l.Attested p payload := by
  intro hp
  obtain ⟨r', hr', hsettled⟩ := h.settled p payload hp
  rw [hr] at hr'
  cases hr'
  exact hsettled hpending

/-- A step that attests what was attested, and keeps the rows it does not retire. -/
theorem Receipted.same {l l' : Log W} (h : Receipted H l)
    (hsame : ∀ p payload, l'.Attested p payload ↔ l.Attested p payload)
    (hkept : ∀ p r, l.rows.get? p = some r → r.outcome ≠ none →
      ∃ r', l'.rows.get? p = some r' ∧ r'.outcome ≠ none)
    (hback : ∀ p r' o', l'.rows.get? p = some r' → r'.outcome = some o' →
      ∃ payload, l.Attested p payload ∧ payload.About H p r' o') : Receipted H l' := by
  constructor
  · intro p payload hp
    obtain ⟨r, hr, hsettled⟩ := h.settled p payload ((hsame p payload).mp hp)
    exact hkept p r hr hsettled
  · exact fun p a b ha hb => h.agree p a b ((hsame p a).mp ha) ((hsame p b).mp hb)
  · intro p r' o' hr' ho'
    obtain ⟨payload, hpayload, habout⟩ := hback p r' o' hr' ho'
    exact ⟨payload, (hsame p payload).mpr hpayload, habout⟩

theorem Receipted.sameRows {l l' : Log W} (h : Receipted H l) (hrows : l'.rows = l.rows)
    (hissued : ∀ q payload, l'.Attested q payload ↔ l.Attested q payload) : Receipted H l' :=
  h.same hissued (fun _ r hr hsettled => ⟨r, hrows ▸ hr, hsettled⟩)
    fun p r' o' hr' ho' => h.attested p r' o' (hrows ▸ hr') ho'

/-! ### Settling -/

/-- A processed row has one receipt, about its outcome. -/
theorem processRow_receipt {d d' : Database W} {p : BigInt} {r r' : Received}
    (h : processRow H d p r = .ok (d', r')) : ∃ payload o, r'.receipt = some payload ∧
      r'.outcome = some o ∧ payload.About H p r' o := by
  simp only [processRow, bind_eq_ok, okOr_eq_ok] at h
  obtain ⟨e, _, verified, _, ⟨world, outcome⟩, houtcome, relationship, _, bytes, hbytes, _, _, _, _, h⟩ := h
  cases h
  refine ⟨_, outcome, rfl, rfl, rfl, rfl, ?_⟩
  have hlive : outcome.digest H = (H.outcomeBytes outcome).map Crypto.sha256 := by
    have hnot : ∀ digest, outcome ≠ .retired digest := by
      intro digest he
      subst he
      unfold decideOutcome at houtcome
      split at houtcome
      · rename_i happly
        cases houtcome
        unfold applyOperation at happly
        cases hop : e.operation <;> simp [hop] at happly
      · simp at houtcome
    cases outcome with
    | retired digest => exact absurd rfl (hnot digest)
    | _ => rfl
  rw [hlive, hbytes]
  rfl

theorem Receipted.settle {l : Log W} (h : Receipted H l) {p : BigInt} {r r' : Received} {d : Database W}
    (hr : l.rows.get? p = some r) (hpending : r.outcome = none)
    (hrow : processRow H l.database p r = .ok (d, r')) :
    Receipted H {l with rows := l.rows.insert p r', database := d} := by
  obtain ⟨payload, o, hpayload, ho, habout⟩ := processRow_receipt hrow
  have hattested : ∀ q x, Log.Attested {l with rows := l.rows.insert p r', database := d} q x ↔
      if q = p then r'.receipt = some x ∨ l.Issued p x else l.Attested q x :=
    Log.attested_insert rfl fun _ _ => Iff.rfl
  -- Nothing was issued for the command while it waited.
  have hnew : ∀ x, r'.receipt = some x ∨ l.Issued p x → x = payload := by
    intro x hx
    rcases hx with hx | hx
    · rw [hpayload] at hx
      exact (Option.some.inj hx).symm
    · exact absurd (.inr hx) (h.not_attested hr hpending x)
  constructor
  · intro q x hx
    rw [hattested] at hx
    split_ifs at hx with hq
    · subst hq
      exact ⟨r', SortedMap.get?_insert_self .., ho ▸ Option.some_ne_none o⟩
    · obtain ⟨s, hs, hsettled⟩ := h.settled q x hx
      exact ⟨s, by rw [SortedMap.get?_insert_ne _ _ hq]; exact hs, hsettled⟩
  · intro q a b ha hb
    rw [hattested] at ha hb
    split_ifs at ha hb with hq
    · rw [hnew a ha, hnew b hb]
    · exact h.agree q a b ha hb
  · intro q s o' hs ho'
    rw [SortedMap.get?_insert] at hs
    split_ifs at hs with hq
    · cases hs
      subst hq
      rw [ho] at ho'
      cases ho'
      exact ⟨payload, (hattested ..).mpr (by rw [if_pos rfl]; exact .inl hpayload), habout⟩
    · obtain ⟨x, hx, hax⟩ := h.attested q s o' hs ho'
      exact ⟨x, (hattested ..).mpr (by rw [if_neg hq]; exact hx), hax⟩

/-! ### Steps -/

/-- An update of one row that attests what was attested, about its outcome if it has one. -/
theorem Receipted.update {l l' : Log W} (h : Receipted H l) {p : BigInt} {r' : Received}
    (hrows : l'.rows = l.rows.insert p r') (hissued : ∀ q payload, l'.Issued q payload ↔ l.Issued q payload)
    (hsame : ∀ payload, r'.receipt = some payload ∨ l.Issued p payload ↔ l.Attested p payload)
    (hkept : ∀ r, l.rows.get? p = some r → r.outcome ≠ none → r'.outcome ≠ none)
    (habout : ∀ o, r'.outcome = some o → ∃ payload, l.Attested p payload ∧ payload.About H p r' o) :
    Receipted H l' := by
  refine h.same (fun q payload => ?_) (fun q r hr hsettled => ?_) (fun q s o hs ho => ?_)
  · rw [Log.attested_insert hrows hissued]
    split_ifs with hq
    · subst hq
      exact hsame payload
    · rfl
  · rw [hrows, SortedMap.get?_insert]
    split_ifs with hq
    · subst hq
      exact ⟨r', rfl, hkept r hr hsettled⟩
    · exact ⟨r, hr, hsettled⟩
  · rw [hrows, SortedMap.get?_insert] at hs
    split_ifs at hs with hq
    · subst hq
      cases hs
      exact habout o ho
    · exact h.attested q s o hs ho

theorem Receipted.moved {l l' : Log W} {c : Option (BigInt × Received)} (h : Receipted H l) (hordered : Ordered l) (hmoved : Moved H l c l') :
    Receipted H l' := by
  cases hmoved with
  | kept rows _ receipts artifacts _ =>
    refine h.sameRows rows fun p payload => ?_
    rw [Log.Attested, Log.Attested, Log.Issued, Log.Issued, rows, receipts, artifacts]
  | @received p r world position pending unsigned _ _ =>
    have hfresh : ∀ s, l.rows.get? p ≠ some s := by
      intro s hs
      have := hordered.drawn p s hs
      omega
    refine h.update rfl (fun _ _ => Iff.rfl) (fun payload => ?_) (fun s hs => absurd hs (hfresh s)) ?_
    · rw [unsigned, Log.Attested]
      exact or_congr_left ⟨fun hnone => absurd hnone (Option.some_ne_none payload).symm,
        fun ⟨s, hs, _⟩ => absurd hs (hfresh s)⟩
    · intro o ho
      rw [pending] at ho
      cases ho
  | settled next row =>
    obtain ⟨hrow, heligible⟩ := Log.nextEligible_eq_some next
    exact h.settle hrow (Log.eligible_pending heligible) row
  | @marked p r failure attempts world row pending =>
    refine h.update rfl (fun _ _ => Iff.rfl) (fun payload => ?_) (fun s hs hsettled => ?_) ?_
    · show r.receipt = some payload ∨ l.Issued p payload ↔ l.Attested p payload
      rw [Log.Attested]
      refine or_congr_left ⟨fun hr => ⟨r, row, hr⟩, ?_⟩
      rintro ⟨s, hs, hr⟩
      rw [row] at hs
      exact Option.some.inj hs ▸ hr
    · rw [row] at hs
      cases hs
      exact absurd pending hsettled
    · intro o ho
      rw [pending] at ho
      cases ho
  | @signed a r row payload =>
    exact h.sameRows rfl fun p x => Log.attested_signed row payload p x
  | @stored a world artifact first =>
    exact h.sameRows rfl fun p x => Log.attested_stored artifact first world p x
  | @retired p r aggregate receipt world row attested =>
    have hstored : l.Issued p receipt.payload := .inr ⟨aggregate, receipt, attested, rfl⟩
    refine h.update rfl (fun _ _ => Iff.rfl) (fun payload => ?_) (fun _ _ _ => Option.some_ne_none _) ?_
    · constructor
      · rintro (hr | hissued)
        · cases hr
        · exact .inr hissued
      · intro hpayload
        rw [h.agree p payload receipt.payload hpayload (.inr hstored)]
        exact .inr hstored
    · intro o ho
      cases ho
      obtain ⟨s, hs, hsettled⟩ := h.settled p receipt.payload (.inr hstored)
      rw [row] at hs
      cases hs
      obtain ⟨o, ho⟩ := Option.ne_none_iff_exists'.mp hsettled
      obtain ⟨payload, hpayload, habout⟩ := h.attested p r o row ho
      obtain rfl := h.agree p payload receipt.payload hpayload (.inr hstored)
      exact ⟨receipt.payload, hpayload, habout.command, habout.position, rfl⟩

end Receipts

end CsMail.Ingress
