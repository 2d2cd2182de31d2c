import CsMail.Lifecycle.Runs

/-! Which batches succeed, and what a restored backup is brought to.

The statement about messages is one the database refuses. A batch with a message in it fails whole, so no
message is ever deleted, and what is due behind one in the order waits with it. -/
namespace CsMail.Lifecycle
open Library

theorem signed_digits {t : Text} (hdigits : ∀ c ∈ t, c.isDigit = true) : signed t = (false, t) := by
  unfold signed
  split
  · exact absurd (hdigits '-' (List.mem_cons_self ..)) (by decide)
  · exact absurd (hdigits '+' (List.mem_cons_self ..)) (by decide)
  · rfl

/-- A position reads back. -/
theorem parseI64_decimal (p : BigInt) : parseI64 (decimal p.val) = some (p.val : ℤ) := by
  have hdigits : ∀ c ∈ decimal p.val, c.isDigit = true := fun c hc =>
    Nat.isDigit_of_mem_toDigits (by decide) (by decide) hc
  have hne : decimal p.val ≠ [] := Nat.toDigits_ne_nil
  have hall : (decimal p.val).all Char.isDigit = true := List.all_eq_true.mpr hdigits
  have hvalue : Nat.ofDigitChars 10 (decimal p.val) 0 = p.val := Nat.ofDigitChars_ten_toDigits
  have hp := p.isLt
  rw [parseI64, signed_digits hdigits]
  dsimp only
  rw [if_neg (by simp [hne, hall]), if_neg Bool.false_ne_true, hvalue, if_pos (by omega)]

/-! ### Messages -/

/-- Everything but a message can be tried. -/
theorem Objects.delete_succeeds (o : Objects) {r : RetentionRecord} (hnamed : r.named) (hkind : r.domain ≠ .message) :
    ∃ out, o.delete r.object r.domain = .ok out := by
  cases hdomain : r.domain with
  | requestDocument => exact ⟨_, rfl⟩
  | content | request | quote =>
    rw [delete]
    split_ifs <;> exact ⟨_, rfl⟩
  | message => exact absurd hdomain hkind
  | command =>
    obtain ⟨p, hp⟩ := hnamed hdomain
    rw [delete, hp, parseI64_decimal, show okOr (some (p.val : ℤ)) Ingress.StorageError.numericRange = .ok _ from rfl,
      ok_bind]
    split_ifs
    · exact ⟨_, rfl⟩
    · split <;> exact ⟨_, rfl⟩

namespace Tables

theorem expire_succeeds {now : BigInt} (hnow : now.val + 1000 < 2 ^ 63) (s : Tables × RetentionReport)
    {r : RetentionRecord} (hnamed : r.named) (hkind : r.domain ≠ .message) : ∃ s', expire now s r = .ok s' := by
  obtain ⟨t, report⟩ := s
  obtain ⟨⟨objects, deleted⟩, hdelete⟩ := t.objects.delete_succeeds hnamed hkind
  have hlater : (canonicalTime now).checkedAdd ⟨1000⟩ = some ⟨⟨now.val + 1000, by omega⟩⟩ :=
    CanonicalTime.checkedAdd_eq_some.mpr rfl
  have hstored : toI64 ⟨now.val + 1000, by omega⟩ = .ok ⟨now.val + 1000, hnow⟩ :=
    okOr_eq_ok.mpr (Checked.ofNat_eq_some.mpr rfl)
  rw [expire]
  dsimp only
  rw [hdelete, ok_bind]
  dsimp only
  split_ifs
  · rw [hlater, show okOr (some _) Ingress.StorageError.numericRange = .ok _ from rfl, ok_bind, hstored, ok_bind]
    exact ⟨_, rfl⟩
  · exact ⟨_, rfl⟩

theorem batch_succeeds {now : BigInt} (hnow : now.val + 1000 < 2 ^ 63) {rows : List RetentionRecord}
    (hrows : ∀ r ∈ rows, r.named ∧ r.domain ≠ .message) (s : Tables × RetentionReport) :
    ∃ s', rows.foldlM (expire now) s = .ok s' := by
  induction rows generalizing s with
  | nil => exact ⟨s, rfl⟩
  | cons r rest ih =>
    obtain ⟨hr, hrest⟩ := List.forall_mem_cons.mp hrows
    obtain ⟨next, hnext⟩ := expire_succeeds hnow s hr.1 hr.2
    obtain ⟨s', hs'⟩ := ih hrest next
    exact ⟨s', bind_eq_ok.mpr ⟨next, hnext, hs'⟩⟩

theorem expire_kind {now : BigInt} {s s' : Tables × RetentionReport} {r : RetentionRecord}
    (h : expire now s r = .ok s') : r.domain ≠ .message := by
  intro hmessage
  obtain ⟨out, hout, _⟩ := bind_eq_ok.mp h
  rw [hmessage] at hout
  cases hout

/-- A batch that is done has no message in it. -/
theorem batch_kind {now : BigInt} {rows : List RetentionRecord} {s s' : Tables × RetentionReport}
    (h : rows.foldlM (expire now) s = .ok s') : ∀ r ∈ rows, r.domain ≠ .message := by
  induction rows generalizing s with
  | nil => exact List.forall_mem_nil _
  | cons r rest ih =>
    obtain ⟨next, hnext, hrest⟩ := bind_eq_ok.mp h
    exact List.forall_mem_cons.mpr ⟨expire_kind hnext, ih hrest⟩

theorem keeps_messages {t t' : Tables} (h : Change t t') {k : Text} {v : Message}
    (hv : t.objects.messages.get? k = some v) : t'.objects.messages.get? k = some v := by
  cases h with
  | insert r objects hnew hactive hhold hnamed hobjects => exact hobjects.messages k v hv
  | defer r hr hactive nextCheckAt => exact hv
  | extend r hr hactive holdUntil deleteAfter hlater changedAt reason => exact hv
  | delete r hr now hdue objects hdelete => exact (Objects.delete_within hdelete).messages k v hv
  | reapply m hm objects hdelete => exact (Objects.delete_within hdelete).messages k v hv
  | rest policies objects othersPending hobjects => exact hobjects.messages k v hv

/-- A message's record is always active. -/
theorem Sound.message_active {t : Tables} (hs : t.Sound) {r : RetentionRecord} (hr : r ∈ t.records)
    (hmessage : r.domain = .message) : r.deleted = false := by
  by_contra hdeleted
  rw [Bool.not_eq_false] at hdeleted
  have hcount := hs.manifested r hr
  rw [if_pos hdeleted] at hcount
  obtain ⟨m, hm, hsame⟩ := List.countP_pos_iff.mp (hcount.symm ▸ Nat.one_pos)
  obtain ⟨other, hother, hjust⟩ := hs.justified m hm
  have href : m.reference = other.reference := congrArg Prod.fst hjust.same
  rw [decide_eq_true_eq] at hsame
  rw [hs.eq_of_reference hr hother (hsame.symm.trans href)] at hmessage
  exact hjust.kind hmessage

end Tables

section Runs
variable [Crypto] (key : Text) (relationship : Bytes32)

/-- No message that was persisted is ever deleted, however long it has been due. -/
theorem messages_never_deleted (before after : List Call) :
    let t := Machine.run call (Tables.start key relationship) before
    let t' := Machine.run call (Tables.start key relationship) (before ++ after)
    (∀ k v, t.objects.messages.get? k = some v → t'.objects.messages.get? k = some v) ∧
      ∀ r ∈ t'.records, r.domain = .message → r.deleted = false := by
  refine ⟨fun k v => ?_, fun r => (Tables.Sound.run key relationship (before ++ after)).message_active⟩
  rw [Machine.run_append]
  refine Machine.run_relates (P := Tables.Sound)
    (R := fun a b => a.objects.messages.get? k = some v → b.objects.messages.get? k = some v) (fun _ h => h)
    (fun _ _ _ hab hbc h => hbc (hab h)) (fun t c t' hs h => ⟨hs.call h, fun hv => ?_⟩)
    (Tables.Sound.run key relationship before) after
  have hchanges := call_changes hs.keyed h
  clear h
  induction hchanges with
  | refl => exact hv
  | tail _ hstep ih => exact Tables.keeps_messages hstep ih

/-- A batch is done exactly when no command is pending and no message is in it: one message that is due fails
all of its batch, every time. -/
theorem runRetention_succeeds_iff (calls : List Call) {now : BigInt} (hnow : now.val + 1000 < 2 ^ 63) (limit : ℤ) :
    let t := Machine.run call (Tables.start key relationship) calls
    (∃ out, t.runRetention (canonicalTime now) limit = .ok out) ↔
      0 ≤ limit ∧ t.requireRelationshipDrained = .ok () ∧
        ∀ r ∈ t.batch now limit.toNat, r.domain ≠ .message := by
  intro t
  have hs : t.Sound := Tables.Sound.run key relationship calls
  have htime : toI64 (canonicalTime now).val = .ok now := okOr_eq_ok.mpr (Checked.ofNat_eq_some.mpr rfl)
  constructor
  · rintro ⟨out, h⟩
    simp only [Tables.runRetention, bind_eq_ok, refuseIf_eq_ok, not_lt] at h
    obtain ⟨_, hlimit, _, hdrained, now', hnow', h⟩ := h
    cases htime.symm.trans hnow'
    exact ⟨hlimit, hdrained, Tables.batch_kind h⟩
  · rintro ⟨hlimit, hdrained, hkinds⟩
    have hrows : ∀ r ∈ t.batch now limit.toNat, r.named ∧ r.domain ≠ .message :=
      fun r hr => ⟨hs.named r (Tables.mem_batch hr).1, hkinds r hr⟩
    obtain ⟨out, hout⟩ := Tables.batch_succeeds hnow hrows (t, ⟨(t.batch now limit.toNat).length, 0, 0⟩)
    refine ⟨out, ?_⟩
    simp only [Tables.runRetention, bind_eq_ok, refuseIf_eq_ok, not_lt]
    exact ⟨⟨⟩, hlimit, ⟨⟩, hdrained, now, htime, hout⟩

end Runs

/-! ### Restored backups -/

namespace Example

local instance : Crypto := ⟨fun b => Vector.ofFn fun i => b.getD i.val 7, fun _ => true, fun _ _ _ => true⟩

/-- A request that was closed. -/
def closed : Objects := {Objects.start with requests := SortedMap.empty.insert "1".toList (some 4)}

def calls : List Call := [.elsewhere closed false, .configureLifecycle ⟨⟨1⟩, ⟨10⟩, ⟨10⟩⟩]

def start : Tables := Tables.start "pair".toList (Vector.replicate 32 1)

theorem runRetention_example : ∃ out, (Machine.run call start calls).runRetention (canonicalTime 20) 5 = .ok out :=
  (runRetention_succeeds_iff "pair".toList (Vector.replicate 32 1) calls (by decide) 5).mpr
    ⟨by decide, by rfl, by decide⟩

/-- The backup still has the request. -/
def restored : Tables := {Machine.run call start (calls ++ [.runRetention ⟨20⟩ 5]) with objects := closed}

end Example

end CsMail.Lifecycle
