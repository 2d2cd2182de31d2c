import CsMail.Ingress.Runs

/-! Whether the inbox goes on, and what a caller that waits for its command is told.

Only a command that requires intervention can hold others up: those of its owners that came later, those
of their owners that came later still, and no others. -/
namespace CsMail.Ingress
open Library

variable {W : Type}

/-- The command waits for one that requires intervention. -/
inductive HeldUp (l : Log W) : BigInt → Prop
  | blocked {p : BigInt} {r : Received} (row : l.rows.get? p = some r) (pending : r.outcome = none)
      (blocked : r.failure = some .requiresIntervention) : HeldUp l p
  | behind {p q : BigInt} {r s : Received} (row : l.rows.get? p = some r) (pending : r.outcome = none)
      (prior : l.rows.get? q = some s) (waits : s.outcome = none) (earlier : q < p)
      (shares : s.shares r.scopes = true) (heldUp : HeldUp l q) : HeldUp l p

namespace Log

theorem head_iff {l : Log W} {p : BigInt} {r : Received} : l.head (p, r) = true ↔ r.outcome = none ∧
    ∀ q s, l.rows.get? q = some s → s.outcome = none → q < p → ¬s.shares r.scopes = true := by
  simp only [head, Received.pending, Option.isNone_iff_eq_none, decide_eq_true_eq,
    List.all_eq_true]
  refine and_congr_right fun _ => ⟨fun h q s hs hwaits hlt hshares => ?_, fun h e he => ?_⟩
  · have := h (q, s) (SortedMap.mem_entries.mpr hs)
    simp [hwaits, hlt, hshares] at this
  · by_cases hwaits : e.2.outcome = none
    · by_cases hlt : e.1 < p
      · simp [hlt, Bool.not_eq_true _ ▸ h e.1 e.2 (SortedMap.mem_entries.mp he) hwaits hlt]
      · simp [hlt]
    · simp [Option.isSome_iff_ne_none.mpr hwaits]

theorem eligible_iff {l : Log W} {p : BigInt} {r : Received} :
    l.eligible (p, r) = true ↔ l.head (p, r) = true ∧ r.failure ≠ some .requiresIntervention := by
  simp [eligible, Received.blocked]

theorem nextEligible_eq_none {l : Log W} :
    l.nextEligible = none ↔ ∀ p r, l.rows.get? p = some r → l.eligible (p, r) = false := by
  rw [nextEligible, Option.or_eq_none_iff, List.head?_eq_none_iff, List.filter_eq_nil_iff]
  constructor
  · intro h p r hr
    exact Bool.not_eq_true _ ▸ h.2 (p, r) (SortedMap.mem_entries.mpr hr)
  · intro h
    have hnone : ∀ e ∈ l.rows.entries, ¬l.eligible e = true := fun e he =>
      Bool.not_eq_true _ ▸ h e.1 e.2 (SortedMap.mem_entries.mp he)
    refine ⟨List.find?_eq_none.mpr fun e he => ?_, hnone⟩
    exact absurd (List.mem_filter.mp he).2 (hnone e (List.mem_filter.mp he).1)

/-- What is held up is not the head of its owners, unless it is the command that requires intervention. -/
theorem not_eligible_of_heldUp {l : Log W} {p : BigInt} (h : HeldUp l p) {r : Received}
    (hr : l.rows.get? p = some r) : l.eligible (p, r) = false := by
  rw [← Bool.not_eq_true, eligible_iff, head_iff]
  cases h with
  | blocked row _ hblocked =>
    rw [row] at hr
    cases hr
    exact fun ⟨_, hne⟩ => hne hblocked
  | behind row _ prior waits earlier shares _ =>
    rw [row] at hr
    cases hr
    exact fun ⟨⟨_, hfirst⟩, _⟩ => hfirst _ _ prior waits earlier shares

/-- Processing finds nothing to do exactly when every pending command is held up. -/
theorem nextEligible_eq_none_iff {l : Log W} : l.nextEligible = none ↔
    ∀ p r, l.rows.get? p = some r → r.outcome = none → HeldUp l p := by
  rw [nextEligible_eq_none]
  constructor
  · -- By the position: a command that is not the head of its owners has an earlier one before it.
    intro h p
    induction p using WellFoundedLT.induction with
    | ind p ih =>
      intro r hr hpending
      have hnot := h p r hr
      rw [← Bool.not_eq_true, eligible_iff, head_iff] at hnot
      by_cases hblocked : r.failure = some .requiresIntervention
      · exact .blocked hr hpending hblocked
      · by_contra hfree
        refine hnot ⟨⟨hpending, fun q s hs hwaits hlt hshares => ?_⟩, hblocked⟩
        exact hfree (.behind hr hpending hs hwaits hlt hshares (ih q hlt s hs hwaits))
  · intro h p r hr
    by_cases hpending : r.outcome = none
    · exact not_eligible_of_heldUp (h p r hr hpending) hr
    · rw [← Bool.not_eq_true, eligible_iff, head_iff]
      exact fun hall => hpending hall.1.1

end Log

/-! ### Waiting for one command -/

variable (H : Handlers W) [Crypto]

def Log.waiting (l : Log W) : ℕ := l.rows.values.countP Received.pending

/-- What one attempt comes to: nothing is eligible, a command is settled, or a fault is recorded. -/
theorem Log.processNext_cases (l : Log W) :
    (l.nextEligible = none ∧ l.processNext H = (l, .ok false)) ∨
      (∃ l', l.processNext H = (l', .ok true) ∧ l'.waiting < l.waiting) ∨
      (∃ l' p r e, l.processNext H = (l', .error e) ∧ l'.rows.get? p = some r ∧ r.outcome = none ∧
        r.failure = some (observedFailure e)) ∨
      ∃ p r, l.nextEligible = some (p, r) ∧ Checked.succ r.failedAttempts = none ∧
        l.processNext H = (l, .error .database) := by
  unfold Log.processNext
  cases hnext : l.nextEligible with
  | none => exact .inl ⟨rfl, rfl⟩
  | some e =>
    obtain ⟨p, r⟩ := e
    obtain ⟨hrow, heligible⟩ := Log.nextEligible_eq_some hnext
    have hpending : r.outcome = none := Log.eligible_pending heligible
    dsimp only
    cases hresult : processRow H l.database p r with
    | ok result =>
      obtain ⟨d, r'⟩ := result
      refine .inr (.inl ⟨_, rfl, ?_⟩)
      have hsettled : r'.pending = false := Option.isNone_eq_false_iff.mpr
        (Option.isSome_iff_ne_none.mpr (processRow_settles hresult).2)
      have hwaits : r.pending = true := Option.isNone_iff_eq_none.mpr hpending
      exact Nat.lt_of_succ_le (SortedMap.countP_values_insert_old hrow hwaits hsettled).le
    | error error =>
      dsimp only [Log.recordFault]
      cases hattempts : Checked.succ r.failedAttempts with
      | none => exact .inr (.inr (.inr ⟨p, r, rfl, hattempts, rfl⟩))
      | some attempts =>
        exact .inr (.inr (.inl ⟨_, p, _, error, rfl, SortedMap.get?_insert_self .., hpending, rfl⟩))

theorem Log.processNext_true {l l' : Log W} (h : l.processNext H = (l', .ok true)) :
    l'.waiting < l.waiting := by
  rcases l.processNext_cases H with ⟨-, hcase⟩ | ⟨l₁, hcase, hless⟩ | ⟨_, _, _, _, hcase, -⟩ | ⟨_, _, -, -, hcase⟩
  · rw [hcase] at h
    cases h
  · rw [hcase] at h
    cases h
    exact hless
  · rw [hcase] at h
    cases h
  · rw [hcase] at h
    cases h

theorem Log.processNext_false {l l' : Log W} (h : l.processNext H = (l', .ok false)) :
    l' = l ∧ l.nextEligible = none := by
  rcases l.processNext_cases H with ⟨hnone, hcase⟩ | ⟨_, hcase, -⟩ | ⟨_, _, _, _, hcase, -⟩ | ⟨_, _, -, -, hcase⟩
  · rw [hcase] at h
    cases h
    exact ⟨rfl, hnone⟩
  · rw [hcase] at h
    cases h
  · rw [hcase] at h
    cases h
  · rw [hcase] at h
    cases h

/-- `process_received`: the outcome is read again after each attempt. -/
def processReceived (handle : ReceivedCommand) (stalled : Bool) (l : Log W) :
    Log W × Except StorageError ReceivedOutcome :=
  match l.row handle.aggregate handle.position with
  | none => (l, .error .database)
  | some r =>
    match r.outcome with
    | some outcome => (l, .ok (outcome.answer handle.replayed))
    | none =>
      if stalled then (l, .error .pendingCommands)
      else
        match _hnext : l.processNext H with
        | (l', .error e) => (l', .error e)
        | (l', .ok true) => processReceived handle false l'
        | (l', .ok false) => processReceived handle true l'
termination_by 2 * l.waiting + (!stalled).toNat
decreasing_by
  · have hless := Log.processNext_true H _hnext
    have hbit := Bool.toNat_le (!stalled)
    have hbit' : (!false).toNat = 1 := rfl
    omega
  · have hsame := (Log.processNext_false H _hnext).1
    simp_all

/-- What the caller is told of its command, as the inbox then is. -/
inductive Told (handle : ReceivedCommand) (l : Log W) : Except StorageError ReceivedOutcome → Prop
  | outcome {r : Received} {o : ReceivedOutcome} (row : l.row handle.aggregate handle.position = some r)
      (settled : r.outcome = some o) : Told handle l (.ok (o.answer handle.replayed))
  /-- An attempt met a fault, which is on record. -/
  | fault {p : BigInt} {r : Received} {e : StorageError} (row : l.rows.get? p = some r)
      (pending : r.outcome = none) (recorded : r.failure = some (observedFailure e)) :
      Told handle l (.error e)
  | heldUp (waits : HeldUp l handle.position) : Told handle l (.error .pendingCommands)
  /-- The count of failed attempts has no room for another. -/
  | exhausted {p : BigInt} {r : Received} (next : l.nextEligible = some (p, r))
      (attempts : Checked.succ r.failedAttempts = none) : Told handle l (.error .database)

variable {H}

theorem Log.row_processNext {l : Log W} (hsound : Sound H l) {aggregate : Text} {position : BigInt}
    {r : Received} (h : l.row aggregate position = some r) :
    ∃ r', (l.processNext H).1.row aggregate position = some r' := by
  obtain ⟨hrow, hagg⟩ := Log.row_eq_some.mp h
  obtain ⟨r', hr', hsame, -⟩ := (l.processNext_moved.carried hsound).kept position r hrow
  exact ⟨r', Log.row_eq_some.mpr ⟨hr', hsame.aggregate.trans hagg⟩⟩

/-- A prefix of attempts, and then the rest of them. -/
theorem run_processNext (l : Log W) (n : ℕ) :
    Machine.run (call H) l (.processNext :: List.replicate n .processNext) =
      Machine.run (call H) (l.processNext H).1 (List.replicate n .processNext) := rfl

/-- An attempt that fails has its fault on record, unless the count is full. -/
theorem Log.told_of_error {handle : ReceivedCommand} {l l' : Log W} {e : StorageError}
    (h : l.processNext H = (l', .error e)) : Told handle l' (.error e) := by
  rcases l.processNext_cases H with ⟨-, hcase⟩ | ⟨_, hcase, -⟩ | ⟨l₁, p, r, e₁, hcase, hrow, hpending, hfault⟩ |
    ⟨p, r, hnext, hattempts, hcase⟩
  · rw [hcase] at h
    cases h
  · rw [hcase] at h
    cases h
  · rw [hcase] at h
    cases h
    exact .fault hrow hpending hfault
  · rw [hcase] at h
    cases h
    exact .exhausted hnext hattempts

/-- Waiting ends after finitely many attempts. By the measure of the loop: an attempt settles a command, or
finds that all that wait are held up. -/
theorem processReceived_told {handle : ReceivedCommand} {stalled : Bool} {l : Log W} (hsound : Sound H l)
    {r : Received} (hrow : l.row handle.aggregate handle.position = some r)
    (hstalled : stalled = true → l.nextEligible = none) :
    ∃ n, (processReceived H handle stalled l).1 = Machine.run (call H) l (List.replicate n .processNext) ∧
      Told handle (processReceived H handle stalled l).1 (processReceived H handle stalled l).2 := by
  induction hn : 2 * l.waiting + (!stalled).toNat using Nat.strong_induction_on generalizing l stalled r with
  | _ n ih =>
    subst hn
    rw [processReceived, hrow]
    dsimp only
    cases houtcome : r.outcome with
    | some outcome => exact ⟨0, rfl, .outcome hrow houtcome⟩
    | none =>
      dsimp only
      by_cases hs : stalled = true
      · rw [if_pos hs]
        obtain ⟨hat, -⟩ := Log.row_eq_some.mp hrow
        exact ⟨0, rfl, .heldUp (Log.nextEligible_eq_none_iff.mp (hstalled hs) _ r hat houtcome)⟩
      · rw [if_neg hs]
        have hfalse : stalled = false := Bool.not_eq_true _ ▸ hs
        subst hfalse
        split
        · rename_i l' e hnext
          refine ⟨1, ?_, Log.told_of_error hnext⟩
          show l' = (l.processNext H).1
          rw [hnext]
        · rename_i l' hnext
          have hless := Log.processNext_true H hnext
          obtain ⟨r', hr'⟩ := Log.row_processNext hsound hrow
          have hsound' : Sound H (l.processNext H).1 := hsound.step (c := .processNext) rfl
          rw [hnext] at hr' hsound'
          have hlt : 2 * l'.waiting + (!false).toNat < 2 * l.waiting + (!false).toNat := by omega
          obtain ⟨n, hrun, htold⟩ := @ih _ hlt false l' hsound' r' hr' (fun h => absurd h hs) rfl
          exact ⟨n + 1, by rw [List.replicate_succ, run_processNext, hnext]; exact hrun, htold⟩
        · rename_i l' hnext
          obtain ⟨rfl, hnone⟩ := Log.processNext_false H hnext
          have hlt : 2 * l'.waiting + (!true).toNat < 2 * l'.waiting + (!false).toNat := Nat.lt_succ_self _
          obtain ⟨n, hrun, htold⟩ := @ih _ hlt true l' hsound r hrow (fun _ => hnone) rfl
          exact ⟨n, hrun, htold⟩

/-- Whatever has happened to the inbox, waiting for a command that is in it ends: with its outcome, with a
fault that is on record, or because the command is held up by one that requires intervention. -/
theorem received_told (world : W) (calls : List (Call W)) {handle : ReceivedCommand} {r : Received}
    (h : (Machine.run (call H) (Log.start world) calls).row handle.aggregate handle.position = some r) :
    let l := Machine.run (call H) (Log.start world) calls
    ∃ n, (processReceived H handle false l).1 = Machine.run (call H) l (List.replicate n .processNext) ∧
      Told handle (processReceived H handle false l).1 (processReceived H handle false l).2 :=
  processReceived_told ((Sound.start world).run calls) h fun hstalled => absurd hstalled Bool.false_ne_true

end CsMail.Ingress
