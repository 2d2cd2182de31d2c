import CsMail.Finance.Execution
import Mathlib.Data.List.TakeWhile

/-! What every payment keeps, attempt after attempt.

`Valid` is what a stored payment must satisfy to be read back. A new payment, a retry and
recorded evidence keep it (`retry_valid`, `record_valid`), so every payment built by these
is read back unchanged (`tryFrom_toStored`). -/
namespace CsMail
open Library

theorem SignedPaymentEvidence.verify_eq_ok [Crypto] {s : SignedPaymentEvidence} {key : Bytes32}
    {o : PaymentOperation} (h : s.verify key o = .ok ()) :
    s.evidence.operationId = o.id ∧ s.evidence.operationDigest = o.digest ∧
      (s.evidence.outcome = .voided → o.kind = .capture) := by
  simp only [verify, bind_eq_ok, refuseIf_eq_ok, exists_const, not_or, not_and, ne_eq,
    Decidable.not_not] at h
  exact ⟨h.1.1, h.1.2, h.2.1⟩

/-! ### States and the evidence they agree with -/

/-- Evidence that changes nothing about an attempt in this state. -/
def PaymentState.Agrees (state : PaymentState) (e : PaymentEvidence) : Prop :=
  ∃ change, nextState state e = .ok (state, change)

section
variable {state state' : PaymentState} {e e' : PaymentEvidence} {change : PaymentChange}

theorem nextState_agrees (h : nextState state e = .ok (state', change)) : state'.Agrees e := by
  unfold PaymentState.Agrees nextState at *
  cases state <;> cases houtcome : e.outcome <;> simp only [houtcome, Except.ok.injEq, Prod.mk.injEq,
    reduceCtorEq] at h <;> obtain ⟨rfl, -⟩ := h <;> simp

/-- What agreed with a state agrees with the states that follow it. -/
theorem PaymentState.Agrees.later (he' : state.Agrees e')
    (h : nextState state e = .ok (state', change)) : state'.Agrees e' := by
  obtain ⟨change', he'⟩ := he'
  unfold PaymentState.Agrees nextState at *
  cases state <;> cases houtcome : e.outcome <;> simp only [houtcome, Except.ok.injEq, Prod.mk.injEq,
    reduceCtorEq] at h <;> obtain ⟨rfl, -⟩ := h <;> cases houtcome' : e'.outcome <;>
    simp [houtcome'] at he' ⊢

/-- An unsuccessful attempt stays as it is. -/
theorem nextState_unsuccessful (hstate : state.isUnsuccessful = true)
    (h : nextState state e = .ok (state', change)) : state' = state ∧ change = .none := by
  unfold nextState at h
  cases state <;> cases houtcome : e.outcome <;>
    simp_all [PaymentState.isUnsuccessful]

/-- Money moves when a pending attempt settles and when a settled one is reversed; without
it an attempt can only turn out unsuccessful. -/
theorem nextState_cases (h : nextState state e = .ok (state', change)) :
    (change = .settled ∧ state = .pending ∧ ∃ settlement, state' = .settled settlement) ∨
    (change = .reversed ∧ ∃ settlement reversal, state = .settled settlement ∧
      state' = .reversed settlement reversal) ∨
    (change = .none ∧ (state' = state ∨ state = .pending ∧ state'.isUnsuccessful = true)) := by
  unfold nextState at h
  cases state <;> cases houtcome : e.outcome <;> simp only [houtcome, Except.ok.injEq, Prod.mk.injEq,
    reduceCtorEq] at h <;> obtain ⟨rfl, rfl⟩ := h <;> simp [PaymentState.isUnsuccessful]

/-- A change that moves no money leaves the attempt as unsettled as it was. -/
theorem nextState_isSettled (h : nextState state e = .ok (state', change)) :
    (change = .settled ∧ state = .pending ∧ state'.isSettled = true) ∨
    (change = .reversed ∧ state.isSettled = true ∧ state'.isSettled = false) ∨
    (change = .none ∧ state'.isSettled = state.isSettled) := by
  rcases nextState_cases h with ⟨rfl, rfl, _, rfl⟩ | ⟨rfl, _, _, rfl, rfl⟩ | ⟨rfl, rfl | ⟨rfl, hfailed⟩⟩
  · exact .inl ⟨rfl, rfl, rfl⟩
  · exact .inr (.inl ⟨rfl, rfl, rfl⟩)
  · exact .inr (.inr ⟨rfl, rfl⟩)
  · refine .inr (.inr ⟨rfl, ?_⟩)
    cases state' <;> first | rfl | cases hfailed

end

namespace StoredExecution
section
variable [Crypto] {events : SortedMap FinancialEventId PaymentEvidence} {e : PaymentEvidence}
  {o : PaymentOperation} {id : FinancialEventId} {outcome : PaymentOutcome}

theorem attests_insert (hnew : events.get? e.eventId = none)
    (h : attests events o id outcome = true) :
    attests (events.insert e.eventId e) o id outcome = true := by
  have hne : id ≠ e.eventId := fun heq => by simp [attests, heq, hnew] at h
  unfold attests
  rw [SortedMap.get?_insert_ne _ _ hne]
  exact h

theorem supported_insert {a : Attempt} (hnew : events.get? e.eventId = none)
    (h : supported events a = true) : supported (events.insert e.eventId e) a = true := by
  unfold supported at *
  cases hstate : a.state <;> simp only [hstate, Bool.decide_and, Bool.and_eq_true, decide_eq_true_eq] at h ⊢
  case settled => exact attests_insert hnew h
  case failed => exact attests_insert hnew h
  case voided => exact ⟨h.1, attests_insert hnew h.2⟩
  case reversed => exact ⟨attests_insert hnew h.1, attests_insert hnew h.2⟩

/-- The state evidence leads to rests on that evidence. -/
theorem supported_next {a : Attempt} {state : PaymentState} {change : PaymentChange}
    (hnew : events.get? e.eventId = none) (h : supported events a = true)
    (hid : e.operationId = a.operation.id) (hdigest : e.operationDigest = a.operation.digest)
    (hvoid : e.outcome = .voided → a.operation.kind = .capture)
    (hnext : nextState a.state e = .ok (state, change)) :
    supported (events.insert e.eventId e) {a with state} = true := by
  have hself : ∀ outcome, e.outcome = outcome →
      attests (events.insert e.eventId e) a.operation e.eventId outcome = true := fun outcome ho => by
    simp [attests, hid, hdigest, ho]
  have hkept := supported_insert hnew h
  unfold nextState at hnext
  unfold supported at hkept ⊢
  cases hstate : a.state <;> cases houtcome : e.outcome <;>
    simp only [hstate, houtcome, Except.ok.injEq, Prod.mk.injEq, reduceCtorEq] at hnext hkept <;>
    obtain ⟨rfl, -⟩ := hnext <;> simp_all

end
end StoredExecution

namespace PaymentExecution
section
variable [Crypto] {p p' : PaymentExecution} {receipt : SignedPaymentEvidence} {key : Bytes32}
  {change : PaymentChange} {o : PaymentOperation} {id : PaymentOperationId}

/-- What a stored payment must satisfy to be read back. -/
structure Valid (p : PaymentExecution) : Prop where
  operations : ∀ a ∈ p.attempts, a.operation.validate = .ok ()
  same : ∀ a ∈ p.attempts, ∀ b ∈ p.attempts, a.operation = {b.operation with id := a.operation.id}
  distinct : (p.attempts.map fun a => a.operation.id).Nodup
  unsuccessful : ∀ a ∈ p.attempts.dropLast, a.state.isUnsuccessful = true
  supported : ∀ a ∈ p.attempts, StoredExecution.supported p.events a = true
  keyed : ∀ id e, p.events.get? id = some e → id = e.eventId
  explained : ∀ id e, p.events.get? id = some e → ∃ a ∈ p.attempts,
    a.operation.id = e.operationId ∧ e.operationDigest = a.operation.digest ∧ a.state.Agrees e

omit [Crypto] in
theorem find?_of_distinct {attempts : List Attempt} {a : Attempt}
    (h : (attempts.map fun a => a.operation.id).Nodup) (ha : a ∈ attempts) :
    attempts.find? (fun b => b.operation.id = a.operation.id) = some a := by
  induction attempts with
  | nil => simp at ha
  | cons b rest ih =>
    obtain ⟨hhead, hrest⟩ := List.nodup_cons.mp h
    rcases List.mem_cons.mp ha with rfl | ha
    · simp
    · have hne : b.operation.id ≠ a.operation.id := fun heq =>
        hhead (List.mem_map.mpr ⟨a, ha, heq.symm⟩)
      simp [hne, ih hrest ha]

omit [Crypto] in
theorem last_mem (p : PaymentExecution) : p.last ∈ p.attempts := List.getLast_mem p.nonempty

omit [Crypto] in
theorem new_eq_ok (h : new o = .ok p) :
    o.validate = .ok () ∧ p.attempts = [⟨o, .pending⟩] ∧ p.events = ∅ := by
  simp only [new, bind_eq_ok, Except.ok.injEq] at h
  obtain ⟨⟨⟩, hvalid, rfl⟩ := h
  exact ⟨hvalid, rfl, rfl⟩

theorem new_valid (h : new o = .ok p) : p.Valid := by
  obtain ⟨hvalid, hattempts, hevents⟩ := new_eq_ok h
  constructor <;> simp [hattempts, hevents, hvalid, StoredExecution.supported]

omit [Crypto] in
theorem operation_eq_none (h : p.operation id = none) : ∀ a ∈ p.attempts, a.operation.id ≠ id := by
  simpa [operation] using h

omit [Crypto] in
/-- A retry opens one attempt more, after an unsuccessful one. -/
theorem retry_eq_ok (h : p.retry id = .ok (p', o)) :
    p.state.isUnsuccessful = true ∧ p.operation id = none ∧ o = {p.current with id} ∧
      o.validate = .ok () ∧ p'.attempts = p.attempts ++ [⟨o, .pending⟩] ∧ p'.events = p.events := by
  simp only [retry, bind_eq_ok, refuseIf_eq_ok, exists_const, not_or, Bool.not_eq_false,
    Bool.not_eq_true, Option.isSome_eq_false_iff, Option.isNone_iff_eq_none, Except.ok.injEq,
    Prod.mk.injEq] at h
  obtain ⟨⟨hstate, hnew⟩, ⟨⟩, hvalid, rfl, rfl⟩ := h
  exact ⟨hstate, hnew, rfl, hvalid, rfl, rfl⟩

theorem retry_valid (hp : p.Valid) (h : p.retry id = .ok (p', o)) : p'.Valid := by
  obtain ⟨hstate, hnew, ho, hvalid, hattempts, hevents⟩ := retry_eq_ok h
  have hfresh := operation_eq_none hnew
  have hoid : o.id = id := by rw [ho]
  have hsame : ∀ a ∈ p.attempts, a.operation = {o with id := a.operation.id} := fun a ha => by
    rw [ho]
    exact hp.same a ha p.last p.last_mem
  have hsame' : ∀ a ∈ p.attempts, o = {a.operation with id := o.id} := fun a ha => by
    rw [hoid, ho, current, hp.same p.last p.last_mem a ha]
  constructor
  · intro a ha
    rw [hattempts, List.mem_append, List.mem_singleton] at ha
    rcases ha with ha | rfl
    · exact hp.operations a ha
    · exact hvalid
  · intro a ha b hb
    rw [hattempts, List.mem_append, List.mem_singleton] at ha hb
    rcases ha with ha | rfl <;> rcases hb with hb | rfl
    · exact hp.same a ha b hb
    · exact hsame a ha
    · exact hsame' b hb
    · rfl
  · rw [hattempts, List.map_append, List.nodup_append]
    refine ⟨hp.distinct, by simp, fun x hx y hy => ?_⟩
    obtain ⟨a, ha, rfl⟩ := List.mem_map.mp hx
    simp only [List.map_cons, List.map_nil, List.mem_singleton] at hy
    rw [hy, hoid]
    exact hfresh a ha
  · intro a ha
    rw [hattempts, List.dropLast_concat] at ha
    -- the attempts before the new one are the old ones and the one that just failed
    rw [← List.dropLast_append_getLast p.nonempty, List.mem_append, List.mem_singleton] at ha
    rcases ha with ha | rfl
    · exact hp.unsuccessful a ha
    · exact hstate
  · intro a ha
    rw [hattempts, List.mem_append, List.mem_singleton] at ha
    rw [hevents]
    rcases ha with ha | rfl
    · exact hp.supported a ha
    · rfl
  · rw [hevents]
    exact hp.keyed
  · intro i e he
    obtain ⟨a, ha, hrest⟩ := hp.explained i e (hevents ▸ he)
    exact ⟨a, by rw [hattempts]; exact List.mem_append_left _ ha, hrest⟩

/-- Recorded evidence is about one attempt: it was seen before, or it is new and takes
that attempt, if it is the last, to its next state. -/
theorem record_eq_ok (h : p.record receipt key = .ok (p', change)) :
    ∃ earlier a later, p.attempts = earlier ++ a :: later ∧
      (∀ b ∈ earlier, b.operation.id ≠ receipt.evidence.operationId) ∧
      receipt.verify key a.operation = .ok () ∧
      ((p.events.get? receipt.evidence.eventId = some receipt.evidence ∧ p' = p ∧ change = .none) ∨
       (p.events.get? receipt.evidence.eventId = none ∧
        ∃ state, nextState a.state receipt.evidence = .ok (state, change) ∧
          (later ≠ [] → change = .none) ∧ p'.attempts = earlier ++ {a with state} :: later ∧
          p'.events = p.events.insert receipt.evidence.eventId receipt.evidence)) := by
  unfold record at h
  rw [List.span_eq_takeWhile_dropWhile] at h
  have hsplit := List.takeWhile_append_dropWhile
    (p := fun a : Attempt => decide (a.operation.id ≠ receipt.evidence.operationId)) (l := p.attempts)
  cases hdrop : p.attempts.dropWhile fun a => decide (a.operation.id ≠ receipt.evidence.operationId) with
  | nil => simp only [hdrop, reduceCtorEq] at h
  | cons a later =>
    simp only [hdrop, bind_eq_ok] at h
    obtain ⟨⟨⟩, hverify, h⟩ := h
    rw [hdrop] at hsplit
    refine ⟨_, a, later, hsplit.symm, fun b hb => ?_, hverify, ?_⟩
    · simpa using List.mem_takeWhile_imp hb
    · cases hold : p.events.get? receipt.evidence.eventId with
      | some old =>
        simp only [hold] at h
        split_ifs at h with heq
        simp only [Except.ok.injEq, Prod.mk.injEq] at h
        exact .inl ⟨by rw [heq], h.1.symm, h.2.symm⟩
      | none =>
        simp only [hold, bind_eq_ok, refuseIf_eq_ok, exists_const, Except.ok.injEq] at h
        obtain ⟨⟨state, change'⟩, hnext, hlast, h⟩ := h
        simp only [Prod.mk.injEq] at h
        obtain ⟨rfl, rfl⟩ := h
        exact .inr ⟨rfl, state, hnext, fun hl => by simpa [hl] using hlast, rfl, rfl⟩

theorem record_valid (hp : p.Valid) (h : p.record receipt key = .ok (p', change)) : p'.Valid := by
  obtain ⟨earlier, a, later, hattempts, -, hverify, ⟨-, rfl, -⟩ | ⟨hnew, state, hnext, -, hattempts', hevents⟩⟩ :=
    record_eq_ok h
  · exact hp
  obtain ⟨hid, hdigest, hvoid⟩ := SignedPaymentEvidence.verify_eq_ok hverify
  have ha : a ∈ p.attempts := by simp [hattempts]
  have hmem : ∀ b ∈ p'.attempts, b ∈ p.attempts ∨ b = {a with state} := fun b hb => by
    rw [hattempts', List.mem_append, List.mem_cons] at hb
    rw [hattempts, List.mem_append, List.mem_cons]
    rcases hb with hb | hb | hb
    · exact .inl (.inl hb)
    · exact .inr hb
    · exact .inl (.inr (.inr hb))
  have hoperation : ∀ b ∈ p'.attempts, ∃ c ∈ p.attempts, c.operation = b.operation := fun b hb => by
    rcases hmem b hb with hb | rfl
    · exact ⟨b, hb, rfl⟩
    · exact ⟨a, ha, rfl⟩
  constructor
  · intro b hb
    obtain ⟨c, hc, hcb⟩ := hoperation b hb
    exact hcb ▸ hp.operations c hc
  · intro b hb b' hb'
    obtain ⟨c, hc, hcb⟩ := hoperation b hb
    obtain ⟨c', hc', hcb'⟩ := hoperation b' hb'
    rw [← hcb, ← hcb']
    exact hp.same c hc c' hc'
  · have hids : (p'.attempts.map fun b => b.operation.id) = p.attempts.map fun b => b.operation.id := by
      rw [hattempts, hattempts', List.map_append, List.map_append, List.map_cons, List.map_cons]
    rw [hids]
    exact hp.distinct
  · by_cases hlater : later = []
    · have hdrop : p'.attempts.dropLast = p.attempts.dropLast := by
        rw [hattempts, hattempts', hlater, List.dropLast_concat, List.dropLast_concat]
      rw [hdrop]
      exact hp.unsuccessful
    · -- an earlier attempt has failed, and stays as it is
      have hold : a ∈ p.attempts.dropLast := by
        rw [hattempts, List.dropLast_append_of_ne_nil (by simp), List.dropLast_cons_of_ne_nil hlater]
        simp
      obtain ⟨rfl, -⟩ := nextState_unsuccessful (hp.unsuccessful a hold) hnext
      rw [hattempts', ← hattempts]
      exact hp.unsuccessful
  · intro b hb
    rw [hevents]
    rcases hmem b hb with hb | rfl
    · exact StoredExecution.supported_insert hnew (hp.supported b hb)
    · exact StoredExecution.supported_next hnew (hp.supported a ha) hid hdigest hvoid hnext
  · intro i e he
    rw [hevents, SortedMap.get?_insert] at he
    split_ifs at he with heq
    · cases he
      exact heq
    · exact hp.keyed i e he
  · intro i e he
    have hq : {a with state} ∈ p'.attempts := by simp [hattempts']
    rw [hevents, SortedMap.get?_insert] at he
    split_ifs at he
    · cases he
      exact ⟨_, hq, hid.symm, hdigest, nextState_agrees hnext⟩
    · obtain ⟨b, hb, hbid, hbdigest, hagrees⟩ := hp.explained i e he
      by_cases hba : b = a
      · subst hba
        exact ⟨_, hq, hbid, hbdigest, hagrees.later hnext⟩
      · refine ⟨b, ?_, hbid, hbdigest, hagrees⟩
        rw [hattempts, List.mem_append, List.mem_cons] at hb
        rw [hattempts', List.mem_append, List.mem_cons]
        exact hb.imp_right fun h => h.elim (fun h => absurd h hba) .inr

/-! ### The attempt that counts -/

omit [Crypto] in
theorem last_of_concat {attempts : List Attempt} {a : Attempt} (h : p.attempts = attempts ++ [a]) :
    p.last = a := by
  simp [last, h]

omit [Crypto] in
theorem retry_current (h : p.retry id = .ok (p', o)) :
    p'.current = o ∧ p'.state = .pending ∧ o = {p.current with id} := by
  obtain ⟨-, -, ho, -, hattempts, -⟩ := retry_eq_ok h
  rw [current, state, last_of_concat hattempts]
  exact ⟨rfl, rfl, ho⟩

/-- Evidence leaves the last attempt as it was, or takes it to its next state. -/
theorem record_last (h : p.record receipt key = .ok (p', change)) :
    p'.current = p.current ∧ ((change = .none ∧ p'.state = p.state) ∨
      nextState p.state receipt.evidence = .ok (p'.state, change)) := by
  obtain ⟨earlier, a, later, hattempts, -, -, ⟨-, rfl, rfl⟩ | ⟨-, state', hnext, hlast, hattempts', -⟩⟩ :=
    record_eq_ok h
  · exact ⟨rfl, .inl ⟨rfl, rfl⟩⟩
  by_cases hlater : later = []
  · subst hlater
    rw [current, current, state, state, last_of_concat hattempts, last_of_concat hattempts']
    exact ⟨rfl, .inr hnext⟩
  · have hsame : p'.last = p.last := by
      obtain ⟨rest, b, rfl⟩ := (List.eq_nil_or_concat later).resolve_left hlater
      have hp : p.attempts = (earlier ++ a :: rest) ++ [b] := by simp [hattempts]
      have hp' : p'.attempts = (earlier ++ {a with state := state'} :: rest) ++ [b] := by
        simp [hattempts']
      rw [last_of_concat hp, last_of_concat hp']
    rw [current, current, state, state, hsame]
    exact ⟨rfl, .inl ⟨hlast hlater, rfl⟩⟩

/-- Evidence settles the last attempt, reverses it, or moves no money. -/
theorem record_current (h : p.record receipt key = .ok (p', change)) :
    p'.current = p.current ∧
      ((change = .settled ∧ p.state.isSettled = false ∧ p'.state.isSettled = true) ∨
        (change = .reversed ∧ p.state.isSettled = true ∧ p'.state.isSettled = false) ∨
        (change = .none ∧ p'.state.isSettled = p.state.isSettled)) := by
  obtain ⟨hcurrent, ⟨rfl, hstate⟩ | hnext⟩ := record_last h
  · exact ⟨hcurrent, .inr (.inr ⟨rfl, by rw [hstate]⟩)⟩
  · refine ⟨hcurrent, ?_⟩
    rcases nextState_isSettled hnext with ⟨hc, hpending, hsettled⟩ | hrest
    · refine .inl ⟨hc, ?_, hsettled⟩
      rw [hpending]
      rfl
    · exact .inr hrest

/-- Evidence is about the operations there are. -/
theorem record_operations (h : p.record receipt key = .ok (p', change)) :
    p'.attempts.map (·.operation) = p.attempts.map (·.operation) := by
  obtain ⟨earlier, a, later, hattempts, -, -, ⟨-, rfl, -⟩ | ⟨-, state', -, -, hattempts', -⟩⟩ := record_eq_ok h
  · rfl
  · simp [hattempts, hattempts']

omit [Crypto] in
theorem operation_ne_none : p.operation id ≠ none ↔ id ∈ (p.attempts.map (·.operation)).map (·.id) := by
  simp [operation]

/-! ### Reading back -/

theorem validateAttempts_eq_ok {first : Attempt} {events : SortedMap FinancialEventId PaymentEvidence}
    {ids : List PaymentOperationId} {attempts : List Attempt}
    (hvalid : ∀ a ∈ attempts, a.operation.validate = .ok ())
    (hsame : ∀ a ∈ attempts, a.operation = {first.operation with id := a.operation.id})
    (hdistinct : (attempts.map fun a => a.operation.id).Nodup)
    (hids : ∀ a ∈ attempts, a.operation.id ∉ ids)
    (hfailed : ∀ a ∈ attempts.dropLast, a.state.isUnsuccessful = true)
    (hsupported : ∀ a ∈ attempts, StoredExecution.supported events a = true) :
    StoredExecution.validateAttempts first events ids attempts = .ok () := by
  induction attempts generalizing ids with
  | nil => rfl
  | cons a rest ih =>
    simp only [List.forall_mem_cons, List.map_cons, List.nodup_cons] at hvalid hsame hdistinct hids hsupported
    have hrest : rest ≠ [] → a.state.isUnsuccessful = true := fun hne =>
      hfailed a (by simp [List.dropLast_cons_of_ne_nil hne])
    have hnext := @ih (a.operation.id :: ids) hvalid.2 hsame.2 hdistinct.2
      (fun b hb => by
        simp only [List.mem_cons, not_or]
        exact ⟨fun heq => hdistinct.1 (heq ▸ List.mem_map_of_mem hb), hids.2 b hb⟩)
      (fun b hb => hfailed b (by
        cases rest with
        | nil => simp at hb
        | cons c rest => simpa [List.dropLast] using .inr hb)) hsupported.2
    simp only [StoredExecution.validateAttempts, hvalid.1, ok_bind, bind_eq_ok, refuseIf_eq_ok,
      hnext]
    refine ⟨⟨⟩, ?_, ⟨⟩, by simp [hsupported.1], trivial⟩
    rintro (hne | hin | ⟨hne, hnot⟩)
    · exact hne hsame.1
    · exact hids.1 hin
    · simp [hrest hne] at hnot

/-- A payment that keeps what it must is read back as it was stored. -/
theorem Valid.validate (hp : p.Valid) : p.validate = .ok () := by
  obtain ⟨first, hfirst⟩ : ∃ first, p.attempts.head? = some first :=
    ⟨_, List.head?_eq_some_head p.nonempty⟩
  have hmem := List.mem_of_mem_head? hfirst
  have hattempts := @validateAttempts_eq_ok _ first p.events [] p.attempts hp.operations
    (fun a ha => hp.same a ha first hmem) hp.distinct (by simp) hp.unsuccessful hp.supported
  have hevents : p.events.entries.forM (StoredExecution.validateEvent p.attempts) = .ok ⟨⟩ := by
    rw [forM_eq_ok]
    rintro ⟨i, e⟩ he
    have he := SortedMap.mem_entries.mp he
    obtain ⟨a, ha, hid, hdigest, change, hnext⟩ := hp.explained i e he
    -- identifiers are distinct, so the first attempt with this one is the attempt itself
    have hfind : p.attempts.find? (fun a => a.operation.id = e.operationId) = some a := by
      rw [← hid]
      exact find?_of_distinct hp.distinct ha
    simp [StoredExecution.validateEvent, hfind, okOr, hp.keyed i e he, hdigest, hnext, refuseIf]
  show p.toStored.validate = .ok ()
  simp only [StoredExecution.validate, toStored, hfirst, okOr, ok_bind, hattempts, hevents]

theorem validateAttempts_spec {first : Attempt} {events : SortedMap FinancialEventId PaymentEvidence}
    {ids : List PaymentOperationId} {attempts : List Attempt}
    (h : StoredExecution.validateAttempts first events ids attempts = .ok ()) :
    (∀ a ∈ attempts, a.operation.validate = .ok () ∧
      a.operation = {first.operation with id := a.operation.id} ∧ a.operation.id ∉ ids ∧
      StoredExecution.supported events a = true) ∧
    (attempts.map fun a => a.operation.id).Nodup ∧ ∀ a ∈ attempts.dropLast, a.state.isUnsuccessful = true := by
  induction attempts generalizing ids with
  | nil => simp
  | cons a rest ih =>
    simp only [StoredExecution.validateAttempts, bind_eq_ok, refuseIf_eq_ok, exists_const, not_or, not_and,
      ne_eq, not_not, Bool.not_eq_false] at h
    obtain ⟨⟨⟩, hvalid, ⟨hsame, hid, hfailed⟩, hsupported, hrest⟩ := h
    obtain ⟨hall, hdistinct, hdrop⟩ := ih hrest
    refine ⟨List.forall_mem_cons.mpr ⟨⟨hvalid, hsame, hid, hsupported⟩, fun b hb => ?_⟩, ?_, ?_⟩
    · obtain ⟨hv, hs, hi, hsup⟩ := hall b hb
      exact ⟨hv, hs, fun hin => hi (List.mem_cons_of_mem _ hin), hsup⟩
    · refine List.nodup_cons.mpr ⟨fun hin => ?_, hdistinct⟩
      obtain ⟨b, hb, heq⟩ := List.mem_map.mp hin
      exact (hall b hb).2.2.1 (heq ▸ List.mem_cons_self ..)
    · cases rest with
      | nil => simp
      | cons b rest =>
        rw [List.dropLast_cons_of_ne_nil (by simp)]
        exact List.forall_mem_cons.mpr ⟨hfailed (by simp), hdrop⟩

/-- A payment is read back exactly when it keeps what it must. -/
theorem validate_eq_ok : p.validate = .ok () ↔ p.Valid := by
  refine ⟨fun h => ?_, Valid.validate⟩
  have h : p.toStored.validate = .ok () := h
  simp only [StoredExecution.validate, toStored, bind_eq_ok, okOr_eq_ok] at h
  obtain ⟨first, hfirst, ⟨⟩, hattempts, hevents⟩ := h
  obtain ⟨hall, hdistinct, hfailed⟩ := validateAttempts_spec hattempts
  have hevent : ∀ id e, p.events.get? id = some e → id = e.eventId ∧ ∃ a ∈ p.attempts,
      a.operation.id = e.operationId ∧ e.operationDigest = a.operation.digest ∧ a.state.Agrees e := by
    intro id e he
    have hcheck := forM_eq_ok.mp hevents (id, e) (SortedMap.mem_entries.mpr he)
    simp only [StoredExecution.validateEvent, bind_eq_ok, okOr_eq_ok, refuseIf_eq_ok, not_or, ne_eq,
      not_not, exists_const] at hcheck
    obtain ⟨a, ha, ⟨hid, hdigest⟩, ⟨state, change⟩, hnext, hstate⟩ := hcheck
    have hoperation : a.operation.id = e.operationId := by simpa using List.find?_some ha
    exact ⟨hid, a, List.mem_of_find?_eq_some ha, hoperation, hdigest, change, hstate ▸ hnext⟩
  constructor
  · exact fun a ha => (hall a ha).1
  · intro a ha b hb
    have ha' := (hall a ha).2.1
    rw [(hall b hb).2.1]
    exact ha'
  · exact hdistinct
  · exact hfailed
  · exact fun a ha => (hall a ha).2.2.2
  · exact fun id e he => (hevent id e he).1
  · exact fun id e he => (hevent id e he).2

theorem Valid.tryFrom (hp : p.Valid) : p.toStored.tryFrom = .ok p := by
  have hvalid : p.toStored.validate = .ok () := hp.validate
  unfold StoredExecution.tryFrom
  rw [hvalid]
  exact dif_pos p.nonempty

end
end PaymentExecution
end CsMail
