import CsMail.Finance.FundingProofs

/-! Evidence presented again to a funding source.

What was recorded once is accepted ever after (`Told`), and the attempt it is about is left
as it is. The restriction is taken from the attempt's state whenever evidence is recorded,
so a replay after a later verification restricts the source again. -/
namespace CsMail
open Library

namespace FundingSource
variable [Crypto] {s s' : FundingSource} {receipt : SignedPaymentEvidence} {key : Bytes32}

/-- The source has recorded this evidence. -/
structure Told (s : FundingSource) (receipt : SignedPaymentEvidence) (key : Bytes32) : Prop where
  granted : receipt.evidence.operationId ∈ s.dispatched ∨ receipt.evidence.outcome = .voided
  recorded : ∃ p a, s.attempts.get? receipt.evidence.operationId = some p ∧ p.attempts = [a] ∧
    receipt.verify key a.operation = .ok () ∧ p.events.get? receipt.evidence.eventId = some receipt.evidence

/-! ### Recorded once -/

theorem told_of_record (hs : s.Valid) (h : s.record receipt key = .ok s') : s'.Told receipt key := by
  have hgranted : receipt.evidence.operationId ∈ s.dispatched ∨ receipt.evidence.outcome = .voided := by
    have hcheck := refuseIf_eq_ok.mp (bind_eq_ok.mp h).choose_spec.1
    by_contra hnot
    exact hcheck (not_or.mp hnot)
  obtain ⟨p, p', change, hp, hrecord, rfl⟩ := record_eq_ok h
  obtain ⟨a, ha⟩ := List.length_eq_one_iff.mp (hs.reserved _ p hp).single
  obtain ⟨earlier, b, later, hattempts, -, hverify, hcases⟩ := PaymentExecution.record_eq_ok hrecord
  rw [ha, List.singleton_eq_append_iff] at hattempts
  have hsplit : earlier = [] ∧ b = a ∧ later = [] := by
    rcases hattempts with ⟨rfl, hb⟩ | ⟨-, hnil⟩
    · obtain ⟨rfl, rfl⟩ := List.cons.inj hb
      exact ⟨rfl, rfl, rfl⟩
    · cases hnil
  obtain ⟨rfl, rfl, rfl⟩ := hsplit
  refine ⟨hgranted, p', ?_⟩
  rcases hcases with ⟨hevent, rfl, -⟩ | ⟨-, state, -, -, hattempts', hevents⟩
  · exact ⟨b, SortedMap.get?_insert_self .., ha, hverify, hevent⟩
  · exact ⟨{b with state}, SortedMap.get?_insert_self .., hattempts', hverify, by
      rw [hevents, SortedMap.get?_insert_self]⟩

/-- Evidence that was recorded stays recorded, whatever else is. -/
theorem Told.record {receipt' : SignedPaymentEvidence} {key' : Bytes32} (h : s.Told receipt key)
    (hrecord : s.record receipt' key' = .ok s') : s'.Told receipt key := by
  obtain ⟨q, q', change, hq, hq', rfl⟩ := record_eq_ok hrecord
  obtain ⟨p, a, hp, ha, hverify, hevent⟩ := h.recorded
  by_cases heq : receipt.evidence.operationId = receipt'.evidence.operationId
  · rw [heq, hq] at hp
    cases hp
    obtain ⟨earlier, b, later, hattempts, -, -, ⟨-, rfl, -⟩ | ⟨hnew, state, -, -, hattempts', hevents⟩⟩ :=
      PaymentExecution.record_eq_ok hq'
    · exact ⟨h.granted, q', a, by rw [heq, SortedMap.get?_insert_self], ha, hverify, hevent⟩
    · have hsame : q'.attempts.map (·.operation) = [a.operation] := by
        rw [PaymentExecution.record_operations hq', ha]
        rfl
      obtain ⟨a', ha', hoperation⟩ := List.map_eq_singleton_iff.mp hsame
      refine ⟨h.granted, q', a', by rw [heq, SortedMap.get?_insert_self], ha', hoperation ▸ hverify, ?_⟩
      rw [hevents, SortedMap.get?_insert_ne _ _ fun hid => ?_]
      · exact hevent
      · rw [hid, hnew] at hevent
        cases hevent
  · exact ⟨h.granted, p, a, (SortedMap.get?_insert_ne _ _ heq).trans hp, ha, hverify, hevent⟩

theorem Told.call {c : FundingCall} (h : s.Told receipt key) (hcall : s.call c = .ok s') : s'.Told receipt key := by
  cases c with
  | reserve o =>
    rcases reserve_eq_ok hcall with rfl | ⟨hnew, -, -, -, -, p, -, rfl⟩
    · exact h
    · obtain ⟨q, a, hq, hrest⟩ := h.recorded
      refine ⟨h.granted, q, a, (SortedMap.get?_insert_ne _ _ fun heq => ?_).trans hq, hrest⟩
      rw [heq, hnew] at hq
      cases hq
  | authorizeDispatch id =>
    rcases authorizeDispatch_eq_ok hcall with ⟨-, rfl⟩ | ⟨-, -, -, rfl⟩
    · exact h
    · exact ⟨h.granted.imp_left (Finset.mem_insert_of_mem ·), h.recorded⟩
  | record receipt' key' => exact h.record hcall
  | reverify bank =>
    obtain ⟨version, -, -, -, rfl⟩ := reverify_eq_ok hcall
    exact ⟨h.granted, h.recorded⟩

theorem Told.calls (h : s.Told receipt key) (cs : List FundingCall) : (s.calls cs).Told receipt key :=
  Machine.run_preserves (P := fun s => Told s receipt key) (fun _ _ _ hs hcall => Told.call hs hcall) h cs

/-! ### Recorded again -/

/-- The attempt's state is not one that restricts the source, or the source is restricted. -/
def Unaffected (s : FundingSource) (id : PaymentOperationId) : Prop :=
  s.restricted = true ∨ ∀ p, s.attempts.get? id = some p → p.state.isAdverse = false

/-- A replay leaves the attempt alone, and takes the restriction from its state. -/
theorem Told.again (h : s.Told receipt key) : ∃ p, s.attempts.get? receipt.evidence.operationId = some p ∧
    s.record receipt key = .ok {s with restricted := s.restricted || p.state.isAdverse} := by
  obtain ⟨p, a, hp, ha, hverify, hevent⟩ := h.recorded
  refine ⟨p, hp, ?_⟩
  have hid : ¬a.operation.id ≠ receipt.evidence.operationId :=
    not_not.mpr (SignedPaymentEvidence.verify_eq_ok hverify).1.symm
  have hsame : p.record receipt key = .ok (p, .none) := by
    unfold PaymentExecution.record
    rw [ha, List.span_eq_takeWhile_dropWhile]
    simp only [List.dropWhile_cons, hid, decide_false, Bool.false_eq_true, if_false, hverify, ok_bind, hevent, if_true]
  have hgranted : ¬(receipt.evidence.operationId ∉ s.dispatched ∧ receipt.evidence.outcome ≠ .voided) := by
    rintro ⟨hnot, hvoided⟩
    exact h.granted.elim hnot hvoided
  unfold FundingSource.record
  simp only [refuseIf, if_neg hgranted, ok_bind, hp, okOr, hsame, SortedMap.insert_get?_self hp]

/-- **Replays.** Evidence accepted once is accepted at every later point of the run, and leaves
the source as it was exactly when the source is restricted already or the attempt is neither
failed nor reversed. -/
theorem replay_inert (hs : s.Opened) {before after : List FundingCall}
    (haccepted : (s.calls before).record receipt key = .ok s') :
    (∃ next, (s.calls (before ++ .record receipt key :: after)).record receipt key = .ok next) ∧
      (s.calls (before ++ .record receipt key :: after ++ [.record receipt key]) =
          s.calls (before ++ .record receipt key :: after) ↔
        (s.calls (before ++ .record receipt key :: after)).Unaffected receipt.evidence.operationId) := by
  have hfirst : Machine.advance call (s.calls before) (.record receipt key) = s' := by
    simp only [Machine.advance, FundingSource.call, haccepted]
  have htold : (s.calls (before ++ .record receipt key :: after)).Told receipt key := by
    have hrun : s.calls (before ++ .record receipt key :: after) = s'.calls after := by
      rw [calls, Machine.run_append, Machine.run_cons]
      exact congrArg (Machine.run call · after) hfirst
    rw [hrun]
    exact (told_of_record ((Valid.of_opened hs).calls before) haccepted).calls after
  have hlast : s.calls (before ++ .record receipt key :: after ++ [.record receipt key]) =
      Machine.advance call (s.calls (before ++ .record receipt key :: after)) (.record receipt key) := by
    rw [calls, Machine.run_append]
    rfl
  generalize s.calls (before ++ .record receipt key :: after) = m at htold hlast
  obtain ⟨p, hp, hagain⟩ := htold.again
  refine ⟨⟨_, hagain⟩, ?_⟩
  rw [hlast]
  simp only [Machine.advance, FundingSource.call, hagain]
  constructor
  · intro hsame
    have hrestricted : (m.restricted || p.state.isAdverse) = m.restricted := congrArg FundingSource.restricted hsame
    cases hm : m.restricted with
    | true => exact .inl hm
    | false =>
      rw [hm, Bool.false_or] at hrestricted
      refine .inr fun q hq => ?_
      rw [hp] at hq
      cases hq
      exact hrestricted
  · rintro (hrestricted | hstate)
    · rw [hrestricted, Bool.true_or, ← hrestricted]
    · rw [hstate p hp, Bool.or_false]

end FundingSource

/-! ### A charge that failed -/

namespace FundingSource

namespace Example

@[reducible] def lenient : Crypto := ⟨fun _ => zero32, fun _ => true, fun _ _ _ => true⟩

def bank (version : U64) (h : version ≠ 0) : VerifiedBankAccount where
  evidence := ⟨capture.scope, ⟨5⟩, ⟨6⟩, token, ⟨1⟩, version, []⟩
  authority := zero32
  identified := ⟨by simp, by simp, show token ≠ zero32 by decide, h⟩

def verifiedSource : FundingSource := ⟨token, .bankVerification 1, false, 1, ∅, ∅⟩

theorem verifiedSource_opened : verifiedSource.Opened := .inl ⟨bank 1 (by decide), 1, rfl⟩

def failed : SignedPaymentEvidence := ⟨⟨⟨1⟩, capture.id, zero32, .failed⟩, List.replicate 64 0⟩

/-- The account is verified again after a charge failed. -/
def failedThenVerified : List FundingCall :=
  reserved ++ .record failed zero32 :: [.reverify (bank 2 (by decide))]

end Example

/-- Presented again after the verification, the failure restricts the source once more. -/
theorem replay_restricts :
    (∃ s', @record Example.lenient (@calls Example.lenient Example.verifiedSource Example.reserved) Example.failed zero32 =
      .ok s') ∧
    (@calls Example.lenient Example.verifiedSource Example.failedThenVerified).restricted = false ∧
    (@calls Example.lenient Example.verifiedSource
      (Example.failedThenVerified ++ [.record Example.failed zero32])).restricted = true ∧
    ¬∀ (s : FundingSource) (_ : s.Opened) (before after : List FundingCall) (receipt : SignedPaymentEvidence)
      (key : Bytes32) (s' : FundingSource), @record Example.lenient (@calls Example.lenient s before) receipt key = .ok s' →
      @calls Example.lenient s (before ++ .record receipt key :: after ++ [.record receipt key]) =
        @calls Example.lenient s (before ++ .record receipt key :: after) := by
  have haccepted : ∃ s', @record Example.lenient (@calls Example.lenient Example.verifiedSource Example.reserved)
      Example.failed zero32 = .ok s' := ⟨_, rfl⟩
  have hlifted : (@calls Example.lenient Example.verifiedSource Example.failedThenVerified).restricted = false := by
    decide +kernel
  have hagain : (@calls Example.lenient Example.verifiedSource
      (Example.failedThenVerified ++ [.record Example.failed zero32])).restricted = true := by decide +kernel
  refine ⟨haccepted, hlifted, hagain, fun hinert => ?_⟩
  obtain ⟨s', hs'⟩ := haccepted
  have hsame := hinert _ Example.verifiedSource_opened Example.reserved [.reverify (Example.bank 2 (by decide))]
    Example.failed zero32 s' hs'
  have hrestricted := congrArg FundingSource.restricted hsame
  rw [show Example.reserved ++ .record Example.failed zero32 :: [.reverify (Example.bank 2 (by decide))] =
    Example.failedThenVerified from rfl, hlifted, hagain] at hrestricted
  cases hrestricted

/-- Before the verification the same replay is inert: the source is still restricted. -/
theorem replay_inert_restricted :
    @calls Example.lenient Example.verifiedSource
        (Example.reserved ++ .record Example.failed zero32 :: [] ++ [.record Example.failed zero32]) =
      @calls Example.lenient Example.verifiedSource (Example.reserved ++ .record Example.failed zero32 :: []) := by
  have haccepted : ∃ s', @record Example.lenient (@calls Example.lenient Example.verifiedSource Example.reserved)
      Example.failed zero32 = .ok s' := ⟨_, rfl⟩
  obtain ⟨s', hs'⟩ := haccepted
  exact (@replay_inert Example.lenient Example.verifiedSource s' Example.failed zero32 Example.verifiedSource_opened
    Example.reserved [] hs').2.mpr (.inl (by decide +kernel))

end FundingSource

end CsMail
