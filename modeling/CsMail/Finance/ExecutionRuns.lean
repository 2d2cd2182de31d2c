import CsMail.Finance.ExecutionProofs
import CsMail.Library.InPlace

/-! The history of one logical payment, over any evidence and any retries.

The methods change the payment in place, after their last check. What a call does to an attempt
it does to its state, and no state that is final is left, apart from a settlement that is reversed
(`Leads`). So a history is valid at every moment, and money moves for one attempt at most
(`history_sound`). -/
namespace CsMail
open Library

namespace PaymentState

/-- Money has moved under the attempt, be it there and back. -/
def isMoved : PaymentState → Bool
  | settled _ | reversed .. => true
  | pending | failed _ | voided _ => false

/-- The states an attempt may come to be in. -/
def Becomes (s s' : PaymentState) : Prop :=
  s' = s ∨ s = .pending ∨ ∃ settlement reversal, s = .settled settlement ∧ s' = .reversed settlement reversal

variable {s s' s'' : PaymentState}

theorem Becomes.trans (h : s.Becomes s') (h' : s'.Becomes s'') : s.Becomes s'' := by
  rcases h with rfl | rfl | ⟨settlement, reversal, rfl, rfl⟩
  · exact h'
  · exact .inr (.inl rfl)
  · rcases h' with rfl | hpending | ⟨_, _, hsettled, -⟩
    · exact .inr (.inr ⟨settlement, reversal, rfl, rfl⟩)
    · cases hpending
    · cases hsettled

theorem Becomes.isMoved (h : s.Becomes s') (hs : s.isMoved = true) : s'.isMoved = true := by
  rcases h with rfl | rfl | ⟨settlement, reversal, rfl, rfl⟩
  · exact hs
  · cases hs
  · rfl

theorem not_isMoved_of_isUnsuccessful (h : s.isUnsuccessful = true) : s.isMoved = false := by
  cases s with
  | failed evidence => rfl
  | voided evidence => rfl
  | pending => cases h
  | settled evidence => cases h
  | reversed settlement reversal => cases h

end PaymentState

theorem nextState_becomes {state state' : PaymentState} {e : PaymentEvidence} {change : PaymentChange}
    (h : nextState state e = .ok (state', change)) : state.Becomes state' := by
  rcases nextState_cases h with ⟨-, rfl, -⟩ | ⟨-, settlement, reversal, rfl, rfl⟩ | ⟨-, rfl | ⟨rfl, -⟩⟩
  · exact .inr (.inl rfl)
  · exact .inr (.inr ⟨settlement, reversal, rfl, rfl⟩)
  · exact .inl rfl
  · exact .inr (.inl rfl)

/-! ### The methods -/

namespace PaymentExecution

abbrev Method := InPlace PaymentExecution PaymentError

namespace Method

def retry (id : PaymentOperationId) : Method PaymentOperation := do
  let p ← get
  let _ ← refuseIf (p.state.isUnsuccessful = false ∨ (p.operation id).isSome = true) PaymentError.invalidOperation
  let operation := {p.current with id}
  let _ ← operation.validate
  modify fun p => ⟨p.attempts ++ [⟨operation, .pending⟩], p.events, by simp⟩
  pure operation

def record [Crypto] (receipt : SignedPaymentEvidence) (key : Bytes32) : Method PaymentChange := do
  let p ← get
  match p.attempts.span fun a => a.operation.id ≠ receipt.evidence.operationId with
  | (_, []) => throw PaymentError.operationMismatch
  | (earlier, attempt :: later) =>
    let _ ← receipt.verify key attempt.operation
    match p.events.get? receipt.evidence.eventId with
    | some old => if old = receipt.evidence then pure .none else throw PaymentError.duplicateConflict
    | none =>
      let next ← nextState attempt.state receipt.evidence
      let _ ← refuseIf (later ≠ [] ∧ next.2 ≠ .none) PaymentError.invalidOperation
      modify fun p => ⟨earlier ++ {attempt with state := next.1} :: later, p.events, by simp⟩
      modify fun p => {p with events := p.events.insert receipt.evidence.eventId receipt.evidence}
      pure next.2

end Method

theorem computes_retry (id : PaymentOperationId) : (Method.retry id).Computes fun p => p.retry id := by
  intro p
  refine InPlace.on_get.trans (InPlace.on_check fun _ _ => ?_)
  exact InPlace.on_check fun _ _ => rfl

theorem computes_record [Crypto] (receipt : SignedPaymentEvidence) (key : Bytes32) :
    (Method.record receipt key).Computes fun p => p.record receipt key := by
  intro p
  refine InPlace.on_get.trans ?_
  unfold PaymentExecution.record
  dsimp only
  cases hspan : p.attempts.span fun a => a.operation.id ≠ receipt.evidence.operationId with
  | mk earlier rest =>
    cases rest with
    | nil => rfl
    | cons attempt later =>
      refine InPlace.on_check fun _ _ => ?_
      cases hold : p.events.get? receipt.evidence.eventId with
      | some old => exact InPlace.on_ite (fun _ => rfl) fun _ => rfl
      | none => exact InPlace.on_check fun _ _ => InPlace.on_check fun _ _ => rfl

end PaymentExecution

inductive ExecutionCall
  | retry (id : PaymentOperationId)
  | record (receipt : SignedPaymentEvidence) (key : Bytes32)

namespace ExecutionCall
variable [Crypto]

/-- The payment's method, with what it returns. -/
def method : ExecutionCall → PaymentExecution.Method (PaymentOperation ⊕ PaymentChange)
  | retry id => Sum.inl <$> PaymentExecution.Method.retry id
  | record receipt key => Sum.inr <$> PaymentExecution.Method.record receipt key

/-- What the method computes. -/
def apply (c : ExecutionCall) (p : PaymentExecution) :
    Except PaymentError (PaymentExecution × (PaymentOperation ⊕ PaymentChange)) :=
  match c with
  | retry id => (p.retry id).map fun r => (r.1, Sum.inl r.2)
  | record receipt key => (p.record receipt key).map fun r => (r.1, Sum.inr r.2)

theorem computes_method (c : ExecutionCall) : c.method.Computes c.apply := by
  cases c with
  | retry id => exact (PaymentExecution.computes_retry id).map _
  | record receipt key => exact (PaymentExecution.computes_record receipt key).map _

theorem method_atomic (c : ExecutionCall) : c.method.Atomic := fun _ _ _ h => c.computes_method.refused h

end ExecutionCall

/-! ### Histories -/

namespace PaymentExecution
variable {p p' p'' : PaymentExecution}

/-- Attempts stay in their place, and none leaves a final state, apart from a settlement that is reversed. -/
structure Leads (p p' : PaymentExecution) : Prop where
  attempts : ∀ (i : ℕ) a, p.attempts[i]? = some a → ∃ b, p'.attempts[i]? = some b ∧ b.operation = a.operation ∧
    a.state.Becomes b.state
  events : ∀ id e, p.events.get? id = some e → p'.events.get? id = some e

theorem Leads.refl (p : PaymentExecution) : p.Leads p := ⟨fun _ a ha => ⟨a, ha, rfl, .inl rfl⟩, fun _ _ he => he⟩

theorem Leads.trans (h : p.Leads p') (h' : p'.Leads p'') : p.Leads p'' := by
  refine ⟨fun i a ha => ?_, fun id e he => h'.events id e (h.events id e he)⟩
  obtain ⟨b, hb, hoperation, hbecomes⟩ := h.attempts i a ha
  obtain ⟨c, hc, hoperation', hbecomes'⟩ := h'.attempts i b hb
  exact ⟨c, hc, hoperation'.trans hoperation, hbecomes.trans hbecomes'⟩

/-- Replacing one element of a list leaves the others in their place. -/
theorem getElem?_replace {α : Type} {before after : List α} {a b : α} {i : ℕ} (h : (before ++ a :: after)[i]? = some b)
    (c : α) : (b = a ∧ (before ++ c :: after)[i]? = some c) ∨ (before ++ c :: after)[i]? = some b := by
  rcases lt_trichotomy i before.length with hlt | rfl | hgt
  · rw [List.getElem?_append_left hlt] at h ⊢
    exact .inr h
  · rw [List.getElem?_append_right le_rfl, Nat.sub_self, List.getElem?_cons_zero] at h ⊢
    exact .inl ⟨(Option.some.inj h).symm, rfl⟩
  · rw [List.getElem?_append_right hgt.le] at h ⊢
    obtain ⟨j, hj⟩ := Nat.exists_eq_succ_of_ne_zero (Nat.sub_ne_zero_of_lt hgt)
    rw [hj, List.getElem?_cons_succ] at h ⊢
    exact .inr h

section
variable [Crypto] {id : PaymentOperationId} {o : PaymentOperation} {receipt : SignedPaymentEvidence} {key : Bytes32}
  {change : PaymentChange}

omit [Crypto] in
theorem retry_leads (h : p.retry id = .ok (p', o)) : p.Leads p' := by
  obtain ⟨-, -, -, -, hattempts, hevents⟩ := retry_eq_ok h
  refine ⟨fun i a ha => ⟨a, ?_, rfl, .inl rfl⟩, fun id e he => hevents ▸ he⟩
  rw [hattempts, List.getElem?_append_left (List.getElem?_eq_some_iff.mp ha).1]
  exact ha

theorem record_leads (h : p.record receipt key = .ok (p', change)) : p.Leads p' := by
  obtain ⟨earlier, a, later, hattempts, -, -, ⟨-, rfl, -⟩ | ⟨hnew, state, hnext, -, hattempts', hevents⟩⟩ :=
    record_eq_ok h
  · exact .refl p'
  refine ⟨fun i b hb => ?_, fun id e he => ?_⟩
  · rw [hattempts] at hb
    rw [hattempts']
    rcases getElem?_replace hb {a with state} with ⟨rfl, hb'⟩ | hb'
    · exact ⟨_, hb', rfl, nextState_becomes hnext⟩
    · exact ⟨b, hb', rfl, .inl rfl⟩
  · have hne : id ≠ receipt.evidence.eventId := by
      rintro rfl
      cases hnew.symm.trans he
    rw [hevents, SortedMap.get?_insert_ne _ _ hne]
    exact he

/-- A call keeps the history valid and leads on from it. -/
theorem call_leads {c : ExecutionCall} {r : PaymentOperation ⊕ PaymentChange} (hp : p.Valid)
    (h : c.apply p = .ok (p', r)) : p'.Valid ∧ p.Leads p' := by
  cases c with
  | retry id =>
    obtain ⟨⟨q, o⟩, hretry, h⟩ := map_eq_ok.mp h
    cases h
    exact ⟨retry_valid hp hretry, retry_leads hretry⟩
  | record receipt key =>
    obtain ⟨⟨q, change⟩, hrecord, h⟩ := map_eq_ok.mp h
    cases h
    exact ⟨record_valid hp hrecord, record_leads hrecord⟩

/-- Money moves under the last attempt only. -/
theorem Valid.last_of_moved (hp : p.Valid) {i : ℕ} {a : Attempt} (ha : p.attempts[i]? = some a)
    (hmoved : a.state.isMoved = true) : i + 1 = p.attempts.length := by
  have hlt := (List.getElem?_eq_some_iff.mp ha).1
  by_contra hne
  have hdrop : p.attempts.dropLast[i]? = some a := by
    rw [List.getElem?_dropLast, if_pos (by omega)]
    exact ha
  have hfailed := hp.unsuccessful a (List.mem_of_getElem? hdrop)
  rw [PaymentState.not_isMoved_of_isUnsuccessful hfailed] at hmoved
  cases hmoved

/-- What is owed at a moment of a history, and at a later one. -/
structure Sound (p p' : PaymentExecution) : Prop where
  valid : p.validate = .ok ()
  ordered : ∀ a ∈ p.attempts.dropLast, a.state.isUnsuccessful = true
  single : ∀ (i j : ℕ) a b, p.attempts[i]? = some a → a.state.isMoved = true → p'.attempts[j]? = some b →
    b.state.isMoved = true → i = j
  leads : p.Leads p'
  opens : ∀ (c : ExecutionCall) r q, c.method.on p = (.ok r, q) → q.attempts.length = p.attempts.length ∨
    (q.attempts.length = p.attempts.length + 1 ∧ p.state.isUnsuccessful = true)
  refused : ∀ (c : ExecutionCall) e q, c.method.on p = (.error e, q) → q = p
  repeats : ∀ receipt key, p.events.get? receipt.evidence.eventId = some receipt.evidence →
    (Method.record receipt key).after p = p ∧ ∀ o, p.operation receipt.evidence.operationId = some o →
      receipt.verify key o = .ok () → (Method.record receipt key).on p = (.ok .none, p)

/-- Evidence that is held already is not recorded again. -/
theorem record_of_held (key : Bytes32)
    (hheld : p.events.get? receipt.evidence.eventId = some receipt.evidence) :
    (p.record receipt key = .ok (p, .none) ∨ ∃ e, p.record receipt key = .error e) ∧
    ∀ o, p.operation receipt.evidence.operationId = some o → receipt.verify key o = .ok () →
      p.record receipt key = .ok (p, .none) := by
  have hfind : p.operation receipt.evidence.operationId =
      (p.attempts.dropWhile fun a => decide (a.operation.id ≠ receipt.evidence.operationId)).head?.map
        Attempt.operation := by
    rw [operation, List.find?_eq_head?_dropWhile_not]
    simp
  unfold record
  rw [hfind, List.span_eq_takeWhile_dropWhile]
  cases p.attempts.dropWhile fun a => decide (a.operation.id ≠ receipt.evidence.operationId) with
  | nil => exact ⟨.inr ⟨_, rfl⟩, fun o ho => by cases ho⟩
  | cons a later =>
    dsimp only
    rw [hheld]
    dsimp only
    rw [if_pos rfl]
    refine ⟨?_, fun o ho hverify => ?_⟩
    · cases receipt.verify key a.operation with
      | ok u => exact .inl rfl
      | error e => exact .inr ⟨e, rfl⟩
    · cases ho
      rw [hverify]
      rfl

theorem Valid.sound (hp : p.Valid) (hleads : p.Leads p') (hp' : p'.Valid) : p.Sound p' where
  valid := hp.validate
  ordered := hp.unsuccessful
  single i j a b ha hmoved hb hmoved' := by
    obtain ⟨a', ha', -, hbecomes⟩ := hleads.attempts i a ha
    have hi := hp'.last_of_moved ha' (hbecomes.isMoved hmoved)
    have hj := hp'.last_of_moved hb hmoved'
    omega
  leads := hleads
  opens c r q h := by
    have h := c.computes_method.accepted h
    cases c with
    | retry id =>
      obtain ⟨⟨q', o⟩, hretry, h⟩ := map_eq_ok.mp h
      cases h
      obtain ⟨hfailed, -, -, -, hattempts, -⟩ := retry_eq_ok hretry
      exact .inr ⟨by rw [hattempts, List.length_append, List.length_singleton], hfailed⟩
    | record receipt key =>
      obtain ⟨⟨q', change⟩, hrecord, h⟩ := map_eq_ok.mp h
      cases h
      have hsame := congrArg List.length (record_operations hrecord)
      rw [List.length_map, List.length_map] at hsame
      exact .inl hsame
  refused c e q h := c.computes_method.refused h
  repeats receipt key hheld := by
    obtain ⟨hcases, hverified⟩ := record_of_held key hheld
    have hon : (Method.record receipt key).on p = InPlace.outcome p (p.record receipt key) :=
      computes_record receipt key p
    refine ⟨?_, fun o ho hverify => ?_⟩
    · rw [InPlace.after, hon]
      rcases hcases with hok | ⟨e, herror⟩
      · rw [hok]
        rfl
      · rw [herror]
        rfl
    · rw [hon, hverified o ho hverify]
      rfl

/-- **The history of a payment is sound**, whatever evidence and retries made it, and whatever follows. -/
theorem history_sound (hnew : new o = .ok p) (calls later : List ExecutionCall) :
    (InPlace.calls ExecutionCall.method p calls).Sound (InPlace.calls ExecutionCall.method p (calls ++ later)) := by
  have hstep : ∀ q c q', q.Valid → (c : ExecutionCall).method.accepted q = .ok q' → q'.Valid ∧ q.Leads q' := by
    intro q c q' hq h
    obtain ⟨r, h⟩ := InPlace.accepted_eq_ok.mp h
    exact call_leads hq (c.computes_method.accepted h)
  rw [InPlace.calls_eq_run ExecutionCall.method_atomic, InPlace.calls_eq_run ExecutionCall.method_atomic,
    Machine.run_append]
  have hq := Machine.run_preserves (fun q c q' hq h => (hstep q c q' hq h).1) (new_valid hnew) calls
  exact hq.sound (Machine.run_relates Leads.refl (fun _ _ _ => Leads.trans) hstep hq later)
    (Machine.run_preserves (fun q c q' hq h => (hstep q c q' hq h).1) hq later)

end

namespace Example

@[reducible] def crypto : Crypto := ⟨fun _ => zero32, fun _ => true, fun _ _ _ => true⟩

def operation : PaymentOperation where
  scope := ⟨zero32, ⟨1⟩, ⟨1⟩, zero32, ⟨2⟩⟩
  id := ⟨5⟩
  kind := .capture
  amount := ⟨300⟩
  unit := ⟨1⟩
  destination := Vector.replicate 32 9

def payment : PaymentExecution := ⟨[⟨operation, .pending⟩], ∅, by decide⟩

def receipt (event : FinancialEventId) (operation : PaymentOperationId) (outcome : PaymentOutcome) :
    SignedPaymentEvidence :=
  ⟨⟨event, operation, zero32, outcome⟩, List.replicate 64 0⟩

/-- The first attempt fails and the second one settles. -/
def calls : List ExecutionCall :=
  [.record (receipt ⟨1⟩ ⟨5⟩ .failed) zero32, .retry ⟨6⟩, .record (receipt ⟨2⟩ ⟨6⟩ .settled) zero32]

end Example

/-- A payment that fails, is tried again, settles and is reversed. -/
theorem history_sound_retried :
    letI := Example.crypto
    (InPlace.calls ExecutionCall.method Example.payment Example.calls).Sound
      (InPlace.calls ExecutionCall.method Example.payment
        (Example.calls ++ [.record (Example.receipt ⟨3⟩ ⟨6⟩ .reversed) zero32])) :=
  letI := Example.crypto
  history_sound (show new Example.operation = .ok Example.payment by rfl) _ _

end PaymentExecution
end CsMail
