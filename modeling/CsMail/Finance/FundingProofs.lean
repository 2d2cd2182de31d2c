import CsMail.Finance.ExecutionProofs
import CsMail.Finance.Funding
import CsMail.Library.Machine

/-! Whole runs of one funding source.

A source is opened by a bank verification or a guest's instrument; reservations,
dispatches, evidence and later verifications follow in any order, and a refused call
changes nothing. `Valid` holds of every source so reached, and with it the source is
read back unchanged (`Valid.tryFrom`). -/
namespace CsMail
open Library

theorem PaymentExecution.current_of_single {p : PaymentExecution} {a : Attempt}
    (h : p.attempts = [a]) : p.last = a := by
  simp [PaymentExecution.last, h]

inductive FundingCall
  | reserve (operation : PaymentOperation)
  | authorizeDispatch (id : PaymentOperationId)
  | record (receipt : SignedPaymentEvidence) (key : Bytes32)
  | reverify (bank : VerifiedBankAccount)
  deriving DecidableEq

namespace FundingSource

/-- The source as it was opened. -/
def Opened (s : FundingSource) : Prop :=
  (∃ bank maximum, verified bank maximum = .ok s) ∨
    ∃ token maximum, guestInstrument token maximum = .ok s

/-- One capture reserved at this source. -/
structure Reserved (token : Bytes32) (id : PaymentOperationId) (p : PaymentExecution) : Prop where
  identified : p.current.id = id
  single : p.attemptCount = 1
  kind : p.current.kind = .capture
  destination : p.current.destination = token

section
variable [Crypto] {s s' : FundingSource}

structure Valid (s : FundingSource) : Prop where
  token : s.token ≠ zero32
  version : s.evidence ≠ .bankVerification 0
  maximum : s.maximumUnresolved ≠ 0
  reserved : ∀ id p, s.attempts.get? id = some p → Reserved s.token id p
  executions : ∀ id p, s.attempts.get? id = some p → p.Valid
  dispatched : ∀ id ∈ s.dispatched, s.attempts.contains id = true
  unresolved : s.unresolved ≤ s.maximumUnresolved.val

omit [Crypto] in
theorem Valid.of_opened [Crypto] (h : s.Opened) : s.Valid := by
  rcases h with ⟨bank, maximum, h⟩ | ⟨token, maximum, h⟩
  · simp only [verified, bind_eq_ok, refuseIf_eq_ok, exists_const, Except.ok.injEq] at h
    obtain ⟨hmaximum, rfl⟩ := h
    refine ⟨bank.identified.bankToken, ?_, hmaximum, by simp, by simp, by simp, Nat.zero_le _⟩
    simpa using bank.identified.version
  · simp only [guestInstrument, bind_eq_ok, refuseIf_eq_ok, exists_const, not_or,
      Except.ok.injEq] at h
    obtain ⟨⟨hmaximum, htoken⟩, rfl⟩ := h
    exact ⟨htoken, by simp, hmaximum, by simp, by simp, by simp, Nat.zero_le _⟩

def call (s : FundingSource) : FundingCall → Except PaymentError FundingSource
  | .reserve operation => s.reserve operation
  | .authorizeDispatch id => s.authorizeDispatch id
  | .record receipt key => s.record receipt key
  | .reverify bank => s.reverify bank

def calls (s : FundingSource) (cs : List FundingCall) : FundingSource := Machine.run call s cs

/-! ### What each call does -/

omit [Crypto] in
theorem reserve_eq_ok {o : PaymentOperation} (h : s.reserve o = .ok s') :
    s' = s ∨ (s.attempts.get? o.id = none ∧ s.restricted = false ∧
      s.unresolved < s.maximumUnresolved.val ∧ o.destination = s.token ∧ o.kind = .capture ∧
      ∃ p, PaymentExecution.new o = .ok p ∧ s' = {s with attempts := s.attempts.insert o.id p}) := by
  unfold reserve at h
  cases hold : s.attempts.get? o.id with
  | some old =>
    simp only [hold] at h
    split_ifs at h
    cases h
    exact .inl rfl
  | none =>
    simp only [hold, bind_eq_ok, refuseIf_eq_ok, exists_const, not_or, not_le, Bool.not_eq_true,
      ne_eq, Decidable.not_not, Except.ok.injEq] at h
    obtain ⟨⟨hrestricted, hroom, hdestination, hkind⟩, p, hp, rfl⟩ := h
    exact .inr ⟨rfl, hrestricted, hroom, hdestination, hkind, p, hp, rfl⟩

omit [Crypto] in
theorem authorizeDispatch_eq_ok {id : PaymentOperationId} (h : s.authorizeDispatch id = .ok s') :
    (id ∈ s.dispatched ∧ s' = s) ∨ (id ∉ s.dispatched ∧ s.restricted = false ∧
      (s.attempts.get? id).map PaymentExecution.state = some .pending ∧
      s' = {s with dispatched := insert id s.dispatched}) := by
  unfold authorizeDispatch at h
  split_ifs at h with hmem
  · cases h
    exact .inl ⟨hmem, rfl⟩
  · simp only [bind_eq_ok, refuseIf_eq_ok, exists_const, not_or, Bool.not_eq_true, ne_eq,
      Decidable.not_not, Except.ok.injEq] at h
    obtain ⟨⟨hrestricted, hpending⟩, rfl⟩ := h
    exact .inr ⟨hmem, hrestricted, hpending, rfl⟩

theorem record_eq_ok {receipt : SignedPaymentEvidence} {key : Bytes32}
    (h : s.record receipt key = .ok s') : ∃ p p' change,
      s.attempts.get? receipt.evidence.operationId = some p ∧ p.record receipt key = .ok (p', change) ∧
      s' = {s with
        attempts := s.attempts.insert receipt.evidence.operationId p'
        restricted := s.restricted || p'.state.isAdverse} := by
  simp only [record, bind_eq_ok, okOr_eq_ok, Except.ok.injEq] at h
  obtain ⟨-, -, p, hp, ⟨p', change⟩, hrecord, h⟩ := h
  exact ⟨p, p', change, hp, hrecord, h.symm⟩

omit [Crypto] in
theorem reverify_eq_ok {bank : VerifiedBankAccount} (h : s.reverify bank = .ok s') :
    ∃ version, s.evidence = .bankVerification version ∧ version < bank.evidence.version ∧
      bank.evidence.bankToken = s.token ∧
      s' = {s with evidence := .bankVerification bank.evidence.version, restricted := false} := by
  unfold reverify at h
  cases hevidence : s.evidence with
  | guestInstrument => simp [hevidence] at h
  | bankVerification version =>
    simp only [hevidence, bind_eq_ok, refuseIf_eq_ok, exists_const, not_or, not_le, ne_eq,
      Decidable.not_not, Except.ok.injEq] at h
    obtain ⟨⟨htoken, hversion⟩, rfl⟩ := h
    exact ⟨version, rfl, hversion, htoken, rfl⟩

/-! ### One attempt, one outcome -/

theorem record_single {p p' : PaymentExecution} {receipt : SignedPaymentEvidence} {key : Bytes32}
    {change : PaymentChange} (hp : p.attemptCount = 1) (h : p.record receipt key = .ok (p', change)) :
    p'.attemptCount = 1 ∧ p'.current = p.current ∧
      (p'.state = p.state ∨ nextState p.state receipt.evidence = .ok (p'.state, change)) := by
  obtain ⟨earlier, a, later, hattempts, -, -, ⟨-, rfl, -⟩ | ⟨-, state, hnext, -, hattempts', -⟩⟩ :=
    PaymentExecution.record_eq_ok h
  · exact ⟨hp, rfl, .inl rfl⟩
  · unfold PaymentExecution.attemptCount at hp
    rw [hattempts, List.length_append, List.length_cons] at hp
    obtain rfl : earlier = [] := List.length_eq_zero_iff.mp (by omega)
    obtain rfl : later = [] := List.length_eq_zero_iff.mp (by omega)
    have hlast := PaymentExecution.current_of_single hattempts
    have hlast' := PaymentExecution.current_of_single hattempts'
    refine ⟨by simp [PaymentExecution.attemptCount, hattempts'], ?_, .inr ?_⟩
    · rw [PaymentExecution.current, PaymentExecution.current, hlast, hlast']
    · rw [PaymentExecution.state, PaymentExecution.state, hlast, hlast']
      exact hnext

/-- Evidence never reopens an attempt. -/
theorem record_pending {p p' : PaymentExecution} {receipt : SignedPaymentEvidence} {key : Bytes32}
    {change : PaymentChange} (hp : p.attemptCount = 1) (h : p.record receipt key = .ok (p', change))
    (hpending : p'.state = .pending) : p.state = .pending := by
  obtain ⟨-, -, hsame | hnext⟩ := record_single hp h
  · rw [← hsame, hpending]
  · rw [hpending] at hnext
    unfold nextState at hnext
    cases hstate : p.state <;> cases houtcome : receipt.evidence.outcome <;>
      simp [hstate, houtcome] at hnext ⊢

theorem Valid.reserve {o : PaymentOperation} (hs : s.Valid) (h : s.reserve o = .ok s') : s'.Valid := by
  rcases reserve_eq_ok h with rfl | ⟨hnew, -, hroom, hdestination, hkind, p, hp, rfl⟩
  · exact hs
  have hattempts := (PaymentExecution.new_eq_ok hp).2.1
  have hlast := PaymentExecution.current_of_single hattempts
  constructor
  · exact hs.token
  · exact hs.version
  · exact hs.maximum
  · intro id q hq
    rw [SortedMap.get?_insert] at hq
    split_ifs at hq with heq
    · obtain rfl := Option.some.inj hq
      have hcurrent : p.current = o := by rw [PaymentExecution.current, hlast]
      exact ⟨by rw [hcurrent, heq], by simp [PaymentExecution.attemptCount, hattempts],
        by rw [hcurrent, hkind], by rw [hcurrent, hdestination]⟩
    · exact hs.reserved id q hq
  · intro id q hq
    rw [SortedMap.get?_insert] at hq
    split_ifs at hq
    · exact Option.some.inj hq ▸ PaymentExecution.new_valid hp
    · exact hs.executions id q hq
  · intro id hid
    obtain ⟨q, hq⟩ := SortedMap.contains_eq_true.mp (hs.dispatched id hid)
    have hne : id ≠ o.id := fun heq => by simp [heq, hnew] at hq
    exact SortedMap.contains_eq_true.mpr ⟨q, by rw [SortedMap.get?_insert_ne _ _ hne, hq]⟩
  · have hcount := SortedMap.countP_values_insert_new p (fun p : PaymentExecution => p.state = .pending) hnew
    show (s.attempts.insert o.id p).values.countP _ ≤ s.maximumUnresolved.val
    unfold FundingSource.unresolved at hroom
    split_ifs at hcount <;> omega

theorem Valid.authorizeDispatch {id : PaymentOperationId} (hs : s.Valid)
    (h : s.authorizeDispatch id = .ok s') : s'.Valid := by
  rcases authorizeDispatch_eq_ok h with ⟨-, rfl⟩ | ⟨-, -, hpending, rfl⟩
  · exact hs
  refine ⟨hs.token, hs.version, hs.maximum, hs.reserved, hs.executions, fun i hi => ?_, hs.unresolved⟩
  rcases Finset.mem_insert.mp hi with rfl | hi
  · obtain ⟨p, hp, -⟩ := Option.map_eq_some_iff.mp hpending
    exact SortedMap.contains_eq_true.mpr ⟨p, hp⟩
  · exact hs.dispatched i hi

theorem Valid.record {receipt : SignedPaymentEvidence} {key : Bytes32} (hs : s.Valid)
    (h : s.record receipt key = .ok s') : s'.Valid := by
  obtain ⟨p, p', change, hp, hrecord, rfl⟩ := record_eq_ok h
  have hreserved := hs.reserved _ p hp
  obtain ⟨hsingle, hcurrent, -⟩ := record_single hreserved.single hrecord
  constructor
  · exact hs.token
  · exact hs.version
  · exact hs.maximum
  · intro id q hq
    rw [SortedMap.get?_insert] at hq
    split_ifs at hq with heq
    · obtain rfl := Option.some.inj hq
      rw [heq]
      exact ⟨hcurrent ▸ hreserved.identified, hsingle, hcurrent ▸ hreserved.kind,
        hcurrent ▸ hreserved.destination⟩
    · exact hs.reserved id q hq
  · intro id q hq
    rw [SortedMap.get?_insert] at hq
    split_ifs at hq
    · exact Option.some.inj hq ▸ PaymentExecution.record_valid (hs.executions _ p hp) hrecord
    · exact hs.executions id q hq
  · intro id hid
    obtain ⟨q, hq⟩ := SortedMap.contains_eq_true.mp (hs.dispatched id hid)
    refine SortedMap.contains_eq_true.mpr ?_
    rw [SortedMap.get?_insert]
    split_ifs
    · exact ⟨p', rfl⟩
    · exact ⟨q, hq⟩
  · refine le_trans (SortedMap.countP_values_insert_le _ _ fun hpending => ⟨p, hp, ?_⟩) hs.unresolved
    simpa using record_pending hreserved.single hrecord (by simpa using hpending)

omit [Crypto] in
theorem Valid.reverify [Crypto] {bank : VerifiedBankAccount} (hs : s.Valid)
    (h : s.reverify bank = .ok s') : s'.Valid := by
  obtain ⟨version, -, -, -, rfl⟩ := reverify_eq_ok h
  refine ⟨hs.token, ?_, hs.maximum, hs.reserved, hs.executions, hs.dispatched, hs.unresolved⟩
  simpa using bank.identified.version

theorem Valid.call {c : FundingCall} (hs : s.Valid) (h : s.call c = .ok s') : s'.Valid := by
  cases c with
  | reserve o => exact hs.reserve h
  | authorizeDispatch id => exact hs.authorizeDispatch h
  | record receipt key => exact hs.record h
  | reverify bank => exact hs.reverify h

theorem Valid.calls (hs : s.Valid) (cs : List FundingCall) : (s.calls cs).Valid :=
  Machine.run_preserves (fun _ _ _ hs h => hs.call h) hs cs

/-! ### Reading back -/

theorem Valid.tryFrom (hs : s.Valid) : s.toStored.tryFrom = .ok s := by
  have hattempts : s.attempts.entries.forM (StoredSource.checkAttempt s.token) = .ok ⟨⟩ := by
    rw [forM_eq_ok]
    rintro ⟨id, p⟩ hp
    obtain ⟨hid, hsingle, hkind, hdestination⟩ := hs.reserved id p (SortedMap.mem_entries.mp hp)
    simp [StoredSource.checkAttempt, hid, hsingle, hkind, hdestination]
  have hfields : ¬(s.token = zero32 ∨ s.evidence = .bankVerification 0 ∨ s.maximumUnresolved = 0) := by
    simp [hs.token, hs.version, hs.maximum]
  have hdispatched : ¬¬∀ id ∈ s.dispatched, s.attempts.contains id = true :=
    not_not_intro hs.dispatched
  unfold StoredSource.tryFrom
  exact bind_eq_ok.mpr ⟨⟨⟩, refuseIf_eq_ok.mpr hfields, bind_eq_ok.mpr ⟨⟨⟩, hattempts,
    bind_eq_ok.mpr ⟨⟨⟩, refuseIf_eq_ok.mpr hdispatched, rfl⟩⟩⟩

/-! ### The control a source keeps -/

/-- What one call may do to the restriction and to the dispatches. -/
structure Controlled (s : FundingSource) (c : FundingCall) (s' : FundingSource) : Prop where
  maximum : s'.maximumUnresolved = s.maximumUnresolved
  kept : s.dispatched ⊆ s'.dispatched
  dispatch : ∀ id ∈ s'.dispatched, id ∉ s.dispatched → c = .authorizeDispatch id ∧
    s.restricted = false ∧ (s.attempts.get? id).map PaymentExecution.state = some .pending
  adverse : ∀ receipt key p, c = .record receipt key →
    s'.attempts.get? receipt.evidence.operationId = some p → p.state.isAdverse = true →
    s'.restricted = true
  lifted : s.restricted = true → s'.restricted = false → ∃ bank version, c = .reverify bank ∧
    s.evidence = .bankVerification version ∧ version < bank.evidence.version ∧
    s'.evidence = .bankVerification bank.evidence.version

theorem controlled {c : FundingCall} (h : s.call c = .ok s') : Controlled s c s' := by
  cases c with
  | reserve o =>
    rcases reserve_eq_ok h with rfl | ⟨-, hrestricted, -, -, -, p, -, rfl⟩
    · exact ⟨rfl, subset_rfl, fun _ h h' => absurd h h', nofun, fun h h' => by simp [h] at h'⟩
    · exact ⟨rfl, subset_rfl, fun _ h h' => absurd h h', nofun, fun h => by simp [h] at hrestricted⟩
  | authorizeDispatch id =>
    rcases authorizeDispatch_eq_ok h with ⟨-, rfl⟩ | ⟨hnew, hrestricted, hpending, rfl⟩
    · exact ⟨rfl, subset_rfl, fun _ h h' => absurd h h', nofun, fun h h' => by simp [h] at h'⟩
    · refine ⟨rfl, Finset.subset_insert _ _, fun i hi hni => ?_, nofun,
        fun h => by simp [h] at hrestricted⟩
      obtain rfl := (Finset.mem_insert.mp hi).resolve_right hni
      exact ⟨rfl, hrestricted, hpending⟩
  | record receipt key =>
    obtain ⟨p, p', change, -, -, rfl⟩ := record_eq_ok h
    refine ⟨rfl, subset_rfl, fun _ h h' => absurd h h', fun r k q hc hq hadverse => ?_,
      fun h h' => by simp [h] at h'⟩
    cases hc
    rw [SortedMap.get?_insert_self] at hq
    simp [Option.some.inj hq, hadverse]
  | reverify bank =>
    obtain ⟨version, hevidence, hversion, -, rfl⟩ := reverify_eq_ok h
    exact ⟨rfl, subset_rfl, fun _ h h' => absurd h h', nofun,
      fun _ _ => ⟨bank, version, rfl, hevidence, hversion, rfl⟩⟩

/-- The step dispatched this attempt. -/
def dispatches (id : PaymentOperationId) (s s' : FundingSource) : Prop :=
  id ∉ s.dispatched ∧ id ∈ s'.dispatched

instance (id : PaymentOperationId) : DecidableRel (dispatches id) := fun _ _ =>
  inferInstanceAs (Decidable (_ ∧ _))

/-- A restriction is lifted at a later verification of the account, and nowhere else. -/
theorem restriction_lifted (cs : List FundingCall) (hs : s.restricted = true)
    (h : (s.calls cs).restricted = false) : ∃ before bank after version,
      cs = before ++ .reverify bank :: after ∧
      (s.calls before).evidence = .bankVerification version ∧ version < bank.evidence.version := by
  obtain ⟨before, c, after, hcs, hbefore, hafter⟩ :=
    Machine.run_first_loss (Q := fun s : FundingSource => s.restricted = true) hs
      (Bool.eq_false_iff.mp h)
  rcases Machine.advance_cases call (Machine.run call s before) c with hsame | hnext
  · rw [hsame] at hafter
    exact absurd hbefore hafter
  · obtain ⟨bank, version, rfl, hevidence, hversion, -⟩ :=
      (controlled hnext).lifted hbefore (by simpa using hafter)
    exact ⟨before, bank, after, version, hcs, hevidence, hversion⟩

/-- **Dispatch control.** Whatever is reserved, dispatched, recorded and verified, and in
whatever order: no more attempts are unresolved than the source allows, a new dispatch needs
an unrestricted source and happens once for each attempt, only a later verification lifts a
restriction, and the source and its attempts are read back as they were stored. -/
theorem dispatch_controlled (hs : s.Opened) (cs : List FundingCall) :
    (s.calls cs).unresolved ≤ s.maximumUnresolved.val ∧
      (∀ c s', (s.calls cs).call c = .ok s' → Controlled (s.calls cs) c s') ∧
      (∀ id, Machine.occurrences call (dispatches id) s cs ≤ 1) ∧
      (∀ cs', (s.calls cs).restricted = true → ((s.calls cs).calls cs').restricted = false →
        ∃ before bank after version, cs' = before ++ .reverify bank :: after ∧
          ((s.calls cs).calls before).evidence = .bankVerification version ∧
          version < bank.evidence.version) ∧
      (s.calls cs).toStored.tryFrom = .ok (s.calls cs) ∧
      ∀ id p, (s.calls cs).attempts.get? id = some p → p.toStored.tryFrom = .ok p := by
  have hvalid := (Valid.of_opened hs).calls cs
  have hmaximum : s.maximumUnresolved = (s.calls cs).maximumUnresolved :=
    Machine.run_relates (P := fun _ => True) (R := fun a b => a.maximumUnresolved = b.maximumUnresolved)
      (fun _ => rfl) (fun _ _ _ => Eq.trans) (fun _ _ _ _ h => ⟨trivial, (controlled h).maximum.symm⟩)
      trivial cs
  refine ⟨hmaximum ▸ hvalid.unresolved, fun c s' h => controlled h, fun id => ?_,
    fun cs' => restriction_lifted cs', hvalid.tryFrom, fun id p hp => (hvalid.executions id p hp).tryFrom⟩
  refine Machine.occurrences_le_one (Q := fun s => id ∈ s.dispatched) (fun s c hid => ?_)
    (fun _ _ h => h) s cs
  rcases Machine.advance_cases call s c with hsame | hnext
  · rw [hsame]
    exact hid
  · exact (controlled hnext).kept hid

end

/-! ### One capture from a guest's instrument -/

namespace Example

def token : Bytes32 := Vector.replicate 32 9

def capture : PaymentOperation where
  scope := ⟨Vector.replicate 32 1, ⟨2⟩, ⟨3⟩, Vector.replicate 32 4, ⟨2⟩⟩
  id := ⟨1⟩
  kind := .capture
  amount := ⟨100⟩
  unit := ⟨1⟩
  destination := token

def source : FundingSource := ⟨token, .guestInstrument, false, 1, ∅, ∅⟩

def reserved : List FundingCall := [.reserve capture, .authorizeDispatch capture.id]

/-- Neither call hashes nor verifies anything. -/
@[reducible] def crypto : Crypto := ⟨fun _ => zero32, fun _ => false, fun _ _ _ => false⟩

end Example

/-- The capture reserved and dispatched: one attempt is unresolved, and one is allowed. -/
theorem dispatch_controlled_guest :
    (@calls Example.crypto Example.source Example.reserved).unresolved ≤ 1 ∧
      (∀ id, @Machine.occurrences _ _ _ (@call Example.crypto) (dispatches id) _ Example.source
        Example.reserved ≤ 1) ∧
      Example.capture.id ∈ (@calls Example.crypto Example.source Example.reserved).dispatched := by
  obtain ⟨hunresolved, -, honce, -⟩ := @dispatch_controlled Example.crypto Example.source
    (.inr ⟨Example.token, 1, rfl⟩) Example.reserved
  exact ⟨hunresolved, honce, by decide⟩

end FundingSource
end CsMail
