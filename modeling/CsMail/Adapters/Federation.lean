import CsMail.Library.Machine
import CsMail.Library.Refusal
import CsMail.Primitives

/-! Federation transactions between providers.

A transaction is prepared with a commitment, and then committed or aborted once. Repeating a prepare is
documented to change nothing, but what is compared is the whole record: once a transaction is final,
the repeated prepare of it is refused as a conflict. -/
namespace CsMail
open Library

structure FederationDigest where
  bytes : Bytes32
  deriving DecidableEq

structure ReservationCommitment where
  transaction : FederationTransactionRef
  senderProvider : Bytes32
  recipientProvider : Bytes32
  commandDigest : FederationDigest
  amount : Money
  unit : SettlementUnit
  expiresAt : CanonicalTime
  deriving DecidableEq

inductive FederationState
  | prepared
  | committed (manifest : FederationDigest)
  | aborted
  deriving DecidableEq

structure FederationRecord where
  commitment : ReservationCommitment
  state : FederationState
  deriving DecidableEq

inductive FederationError
  | duplicateConflict
  | missingPrepare
  | prepareExpired
  | commandMismatch
  | alreadyFinal
  deriving DecidableEq

/-- The transactions of a provider. -/
abbrev FederationBook := SortedMap FederationTransactionRef FederationRecord

namespace FederationBook
variable (b : FederationBook)

/-- Records a reservation commitment. -/
def prepare (commitment : ReservationCommitment) : Except FederationError FederationBook :=
  match b.get? commitment.transaction with
  | some existing => if existing = ⟨commitment, .prepared⟩ then .ok b else .error .duplicateConflict
  | none => .ok (b.insert commitment.transaction ⟨commitment, .prepared⟩)

/-- Commits only the exact prepared command before expiry. -/
def commit (transaction : FederationTransactionRef) (command manifest : FederationDigest)
    (now : CanonicalTime) : Except FederationError (FederationBook × FederationRecord) := do
  let record ← okOr (b.get? transaction) .missingPrepare
  refuseIf (record.state ≠ .prepared) .alreadyFinal
  refuseIf (record.commitment.expiresAt < now) .prepareExpired
  refuseIf (command ≠ record.commitment.commandDigest) .commandMismatch
  let record := {record with state := .committed manifest}
  .ok (b.insert transaction record, record)

/-- Aborts a prepared transaction without changing any protocol manifest. -/
def abort (transaction : FederationTransactionRef) : Except FederationError (FederationBook × FederationRecord) := do
  let record ← okOr (b.get? transaction) .missingPrepare
  refuseIf (record.state ≠ .prepared) .alreadyFinal
  let record := {record with state := .aborted}
  .ok (b.insert transaction record, record)

end FederationBook

/-! ### Runs -/

inductive FederationCall
  | prepare (commitment : ReservationCommitment)
  | commit (transaction : FederationTransactionRef) (command manifest : FederationDigest) (now : CanonicalTime)
  | abort (transaction : FederationTransactionRef)
  deriving DecidableEq

/-- The transaction a call makes final. -/
def FederationCall.ends : FederationCall → Option FederationTransactionRef
  | prepare _ => none
  | commit transaction .. | abort transaction => some transaction

namespace FederationBook

def step (b : FederationBook) : FederationCall → Except FederationError FederationBook
  | .prepare commitment => b.prepare commitment
  | .commit transaction command manifest now => (b.commit transaction command manifest now).map Prod.fst
  | .abort transaction => (b.abort transaction).map Prod.fst

/-- The book after calls on an empty one; a refused call leaves it as it is. -/
def after (calls : List FederationCall) : FederationBook := Machine.run step ∅ calls

/-- Everything a call can do. -/
inductive Stepped (b : FederationBook) : FederationCall → FederationBook → Prop
  | repeated {c} (h : b.get? c.transaction = some ⟨c, .prepared⟩) : Stepped b (.prepare c) b
  | prepared {c} (h : b.get? c.transaction = none) :
      Stepped b (.prepare c) (b.insert c.transaction ⟨c, .prepared⟩)
  | committed {t command manifest now c} (h : b.get? t = some ⟨c, .prepared⟩) (hnow : now ≤ c.expiresAt)
      (hcommand : command = c.commandDigest) :
      Stepped b (.commit t command manifest now) (b.insert t ⟨c, .committed manifest⟩)
  | aborted {t c} (h : b.get? t = some ⟨c, .prepared⟩) : Stepped b (.abort t) (b.insert t ⟨c, .aborted⟩)

variable {b b' : FederationBook} {call : FederationCall}

theorem step_eq_ok : b.step call = .ok b' ↔ Stepped b call b' := by
  constructor
  · intro h
    cases call with
    | prepare c =>
      replace h : b.prepare c = .ok b' := h
      unfold prepare at h
      split at h
      · next existing hexisting =>
        split_ifs at h with hsame
        cases h
        exact .repeated (hsame ▸ hexisting)
      · next hnone =>
        cases h
        exact .prepared hnone
    | commit t command manifest now =>
      obtain ⟨done, hdone, rfl⟩ := map_eq_ok.mp h
      simp only [commit, bind_eq_ok, okOr_eq_ok, refuseIf_eq_ok, not_not, not_lt, Except.ok.injEq] at hdone
      obtain ⟨⟨c, state⟩, hrecord, ⟨⟩, rfl, ⟨⟩, hnow, ⟨⟩, hcommand, rfl⟩ := hdone
      exact .committed hrecord hnow hcommand
    | abort t =>
      obtain ⟨done, hdone, rfl⟩ := map_eq_ok.mp h
      simp only [abort, bind_eq_ok, okOr_eq_ok, refuseIf_eq_ok, not_not, Except.ok.injEq] at hdone
      obtain ⟨⟨c, state⟩, hrecord, ⟨⟩, rfl, rfl⟩ := hdone
      exact .aborted hrecord
  · intro h
    cases h with
    | repeated h => simp [step, prepare, h]
    | prepared h => simp [step, prepare, h]
    | @committed t command manifest now c h hnow hcommand =>
      refine map_eq_ok.mpr ⟨(_, ⟨c, .committed manifest⟩), ?_, rfl⟩
      simp only [commit, bind_eq_ok, okOr_eq_ok, refuseIf_eq_ok, not_not, not_lt, Except.ok.injEq]
      exact ⟨_, h, ⟨⟩, rfl, ⟨⟩, hnow, ⟨⟩, hcommand, rfl⟩
    | @aborted t c h =>
      refine map_eq_ok.mpr ⟨(_, ⟨c, .aborted⟩), ?_, rfl⟩
      simp only [abort, bind_eq_ok, okOr_eq_ok, refuseIf_eq_ok, not_not, Except.ok.injEq]
      exact ⟨_, h, ⟨⟩, rfl, rfl⟩

/-! ### What a run keeps -/

/-- Commitments stay, and so do final states. -/
def Keeps (b b' : FederationBook) : Prop :=
  ∀ t r, b.get? t = some r → ∃ r', b'.get? t = some r' ∧ r'.commitment = r.commitment ∧
    (r.state ≠ .prepared → r' = r)

theorem Keeps.refl (b : FederationBook) : Keeps b b := fun _ r h => ⟨r, h, rfl, fun _ => rfl⟩

theorem Keeps.trans {b b' b'' : FederationBook} (h : Keeps b b') (h' : Keeps b' b'') : Keeps b b'' := by
  intro t r hr
  obtain ⟨r', hr', hsame, hfinal⟩ := h t r hr
  obtain ⟨r'', hr'', hsame', hfinal'⟩ := h' t r' hr'
  refine ⟨r'', hr'', hsame'.trans hsame, fun hr => ?_⟩
  cases hfinal hr
  exact hfinal' hr

theorem keeps_insert {t : FederationTransactionRef} {r : FederationRecord} (h : ∀ r', b.get? t = some r' →
    r'.state = .prepared ∧ r.commitment = r'.commitment) : Keeps b (b.insert t r) := by
  intro t' r' hr'
  by_cases ht : t' = t
  · subst ht
    obtain ⟨hprepared, hsame⟩ := h r' hr'
    exact ⟨r, SortedMap.get?_insert_self .., hsame, fun hfinal => absurd hprepared hfinal⟩
  · exact ⟨r', (SortedMap.get?_insert_ne b r ht).trans hr', rfl, fun _ => rfl⟩

theorem Stepped.keeps (h : Stepped b call b') : Keeps b b' := by
  cases h with
  | repeated => exact .refl b
  | prepared h =>
    refine keeps_insert fun r' hr' => ?_
    cases h.symm.trans hr'
  | committed h | aborted h =>
    refine keeps_insert fun r' hr' => ?_
    cases h.symm.trans hr'
    exact ⟨rfl, rfl⟩

theorem keeps_run (b : FederationBook) (calls : List FederationCall) : Keeps b (Machine.run step b calls) :=
  Machine.run_relates (P := fun _ => True) Keeps.refl (fun _ _ _ => Keeps.trans)
    (fun _ _ _ _ h => ⟨trivial, (step_eq_ok.mp h).keeps⟩) trivial calls

theorem after_append (calls rest : List FederationCall) :
    after (calls ++ rest) = Machine.run step (after calls) rest := Machine.run_append ..

theorem after_cons (calls : List FederationCall) (call : FederationCall) (rest : List FederationCall) :
    after (calls ++ call :: rest) = Machine.run step (Machine.advance step (after calls) call) rest :=
  (after_append ..).trans (Machine.run_cons ..)

/-- A call changes a record only as one of the accepted calls does. -/
theorem accepted_of_ne {calls : List FederationCall} {t : FederationTransactionRef}
    (h : (Machine.advance step (after calls) call).get? t ≠ (after calls).get? t) :
    Stepped (after calls) call (Machine.advance step (after calls) call) := by
  rcases Machine.advance_cases step (after calls) call with hsame | hok
  · rw [hsame] at h
    exact absurd rfl h
  · exact step_eq_ok.mp hok

/-- A record appears as prepared, by the prepare of its commitment. -/
theorem Stepped.appears (h : Stepped b call b') {t : FederationTransactionRef} {r : FederationRecord}
    (hnone : b.get? t = none) (hsome : b'.get? t = some r) :
    call = .prepare r.commitment ∧ r.commitment.transaction = t := by
  cases h with
  | repeated => cases hnone.symm.trans hsome
  | prepared =>
    rcases SortedMap.get?_insert_eq_some.mp hsome with ⟨rfl, rfl⟩ | ⟨-, hold⟩
    · exact ⟨rfl, rfl⟩
    · cases hnone.symm.trans hold
  | committed h | aborted h =>
    rcases SortedMap.get?_insert_eq_some.mp hsome with ⟨rfl, -⟩ | ⟨-, hold⟩
    · cases hnone.symm.trans h
    · cases hnone.symm.trans hold

/-- A record becomes committed by a commit of the command prepared, in time. -/
theorem Stepped.commits (h : Stepped b call b') {t : FederationTransactionRef} {r : FederationRecord}
    {manifest : FederationDigest} (hnew : b'.get? t = some r) (hstate : r.state = .committed manifest)
    (hold : b.get? t ≠ some r) :
    ∃ now, call = .commit t r.commitment.commandDigest manifest now ∧ now ≤ r.commitment.expiresAt := by
  cases h with
  | repeated => exact absurd hnew hold
  | @prepared c h | @aborted t' c h =>
    rcases SortedMap.get?_insert_eq_some.mp hnew with ⟨rfl, rfl⟩ | ⟨-, hsame⟩
    · cases hstate
    · exact absurd hsame hold
  | @committed t' command manifest' now c h hnow hcommand =>
    rcases SortedMap.get?_insert_eq_some.mp hnew with ⟨rfl, rfl⟩ | ⟨-, hsame⟩
    · cases hstate
      exact ⟨now, by rw [hcommand], hnow⟩
    · exact absurd hsame hold

/-- A transaction is recorded by the prepare of its commitment. -/
theorem prepared_before {calls : List FederationCall} {t : FederationTransactionRef} {r : FederationRecord}
    (h : (after calls).get? t = some r) : ∃ before rest, calls = before ++ .prepare r.commitment :: rest ∧
      Stepped (after before) (.prepare r.commitment) (Machine.advance step (after before) (.prepare r.commitment)) ∧
      r.commitment.transaction = t := by
  have hlost : ¬(after calls).get? t = none := by
    rw [h]
    exact Option.some_ne_none r
  obtain ⟨before, call, rest, rfl, hnone, hsome⟩ :=
    @Machine.run_first_loss _ _ _ step (fun b => b.get? t = none) ∅ calls rfl hlost
  replace hnone : (after before).get? t = none := hnone
  replace hsome : ¬(Machine.advance step (after before) call).get? t = none := hsome
  have hstep := accepted_of_ne (hnone ▸ hsome)
  obtain ⟨r₀, hr₀⟩ := Option.ne_none_iff_exists'.mp hsome
  obtain ⟨r', hr', hcommitment, -⟩ := keeps_run (Machine.advance step (after before) call) rest t r₀ hr₀
  rw [← after_cons, h] at hr'
  cases hr'
  obtain ⟨rfl, htransaction⟩ := hstep.appears hnone hr₀
  rw [hcommitment]
  exact ⟨before, rest, rfl, hstep, htransaction⟩

/-- A committed transaction was committed by a commit of the command prepared, in time. -/
theorem committed_by {calls : List FederationCall} {t : FederationTransactionRef} {r : FederationRecord}
    {manifest : FederationDigest} (h : (after calls).get? t = some r) (hstate : r.state = .committed manifest) :
    ∃ before now rest, calls = before ++ .commit t r.commitment.commandDigest manifest now :: rest ∧
      now ≤ r.commitment.expiresAt := by
  have hfresh : ¬(∅ : FederationBook).get? t = some r := nofun
  obtain ⟨before, call, rest, rfl, hold, hnew⟩ :=
    @Machine.run_first_loss _ _ _ step (fun b => ¬b.get? t = some r) ∅ calls hfresh (not_not_intro h)
  replace hold : (after before).get? t ≠ some r := hold
  replace hnew : (Machine.advance step (after before) call).get? t = some r := not_not.mp hnew
  have hstep := accepted_of_ne (hnew ▸ hold.symm)
  obtain ⟨now, rfl, hnow⟩ := hstep.commits hnew hstate hold
  exact ⟨before, now, rest, rfl, hnow⟩

/-! ### Finality and repetition -/

/-- What is final is refused. -/
theorem refused_of_final {t : FederationTransactionRef} {r : FederationRecord} (h : b.get? t = some r)
    (hfinal : r.state ≠ .prepared) (hends : call.ends = some t) : ∃ e, b.step call = .error e := by
  cases hstep : b.step call with
  | error e => exact ⟨e, rfl⟩
  | ok b' =>
    exfalso
    cases step_eq_ok.mp hstep with
    | repeated | prepared => cases hends
    | committed h' | aborted h' =>
      cases hends
      cases h.symm.trans h'
      exact hfinal rfl

/-- An accepted call that ends a transaction leaves it final. -/
theorem final_of_ends {t : FederationTransactionRef} (h : Stepped b call b') (hends : call.ends = some t) :
    ∃ r, b'.get? t = some r ∧ r.state ≠ .prepared := by
  cases h with
  | repeated | prepared => cases hends
  | committed | aborted =>
    cases hends
    exact ⟨_, SortedMap.get?_insert_self .., nofun⟩

/-- The call is no repeated prepare of a final transaction. -/
def Timely (b : FederationBook) (call : FederationCall) : Prop :=
  ∀ c, call = .prepare c → ∀ r, b.get? c.transaction = some r → r.commitment = c → r.state = .prepared

/-- What a run owes. -/
structure Federated (calls : List FederationCall) : Prop where
  /-- A transaction is bound to one commitment for ever, and to how it ended. -/
  bound : ∀ before rest, calls = before ++ rest → Keeps (after before) (after calls)
  /-- A transaction is ended once at most, by a commit or by an abort. -/
  once : ∀ before call between call' rest t, calls = before ++ call :: (between ++ call' :: rest) →
    call.ends = some t → call'.ends = some t → (∃ b, (after before).step call = .ok b) →
    ∃ e, (after (before ++ call :: between)).step call' = .error e
  /-- It is committed only for the command prepared, and not after its expiry. -/
  exactly : ∀ t r manifest, (after calls).get? t = some r → r.state = .committed manifest →
    ∃ before now rest, calls = before ++ .commit t r.commitment.commandDigest manifest now :: rest ∧
      now ≤ r.commitment.expiresAt
  /-- A refused call changes no record. -/
  refused : ∀ before call rest e, calls = before ++ call :: rest → (after before).step call = .error e →
    after (before ++ [call]) = after before
  /-- A prepare that was accepted is accepted again, without effect. -/
  repeated : ∀ before c between rest, calls = before ++ .prepare c :: (between ++ .prepare c :: rest) →
    (∃ b, (after before).prepare c = .ok b) →
    (after (before ++ .prepare c :: between)).prepare c = .ok (after (before ++ .prepare c :: between))

theorem prepared_of_ok {c : ReservationCommitment} (h : b.prepare c = .ok b') :
    b'.get? c.transaction = some ⟨c, .prepared⟩ := by
  have hstep : Stepped b (.prepare c) b' := step_eq_ok.mp h
  cases hstep with
  | repeated hget => exact hget
  | prepared => exact SortedMap.get?_insert_self ..

theorem ended_once {before between : List FederationCall} {call' : FederationCall} {t : FederationTransactionRef}
    (hends : call.ends = some t) (hends' : call'.ends = some t) (hok : (after before).step call = .ok b) :
    ∃ e, (after (before ++ call :: between)).step call' = .error e := by
  obtain ⟨r, hr, hfinal⟩ := final_of_ends (step_eq_ok.mp hok) hends
  obtain ⟨r', hr', -, hsame⟩ := keeps_run b between t r hr
  cases hsame hfinal
  rw [after_cons, Machine.advance_of_ok hok]
  exact refused_of_final hr' hfinal hends'

theorem repeated_of_timely {before between rest : List FederationCall} {c : ReservationCommitment}
    (h : Machine.Along step Timely ∅ (before ++ .prepare c :: (between ++ .prepare c :: rest)))
    (hok : (after before).prepare c = .ok b) :
    (after (before ++ .prepare c :: between)).prepare c = .ok (after (before ++ .prepare c :: between)) := by
  have hcalls : before ++ .prepare c :: (between ++ .prepare c :: rest) =
      (before ++ .prepare c :: between) ++ .prepare c :: rest := by simp
  rw [hcalls] at h
  have htimely : Timely (after (before ++ .prepare c :: between)) (.prepare c) := (Machine.along_append.mp h).2.1
  have hadvance : Machine.advance step (after before) (.prepare c) = b := Machine.advance_of_ok hok
  obtain ⟨⟨c', state⟩, hr', hcommitment, -⟩ := keeps_run b between c.transaction _ (prepared_of_ok hok)
  rw [← hadvance, ← after_cons] at hr'
  cases hcommitment
  cases htimely c rfl _ hr' rfl
  rw [prepare, hr']
  exact if_pos rfl

/-- **Federation transactions are final, and replayable until they are.** A run does what is owed if
and only if no transaction is prepared again after it was committed or aborted. -/
theorem federated_iff (calls : List FederationCall) : Federated calls ↔ Machine.Along step Timely ∅ calls := by
  constructor
  · intro h
    by_contra hnot
    obtain ⟨before, call, rest, rfl, huntimely⟩ := Machine.exists_of_not_along hnot
    unfold Timely at huntimely
    push Not at huntimely
    obtain ⟨c, rfl, r, hr, rfl, hfinal⟩ := huntimely
    obtain ⟨before', between, rfl, hstep, -⟩ := prepared_before hr
    have hagain := h.repeated before' r.commitment between rest (by simp) ⟨_, step_eq_ok.mpr hstep⟩
    have hprepared := Option.some.inj (hr.symm.trans (prepared_of_ok hagain))
    exact hfinal (congrArg FederationRecord.state hprepared)
  · intro h
    exact {
      bound := fun before rest hcalls => by
        rw [hcalls, after_append]
        exact keeps_run (after before) rest
      once := fun before call between call' rest t _ hends hends' ⟨b, hok⟩ =>
        ended_once hends hends' hok
      exactly := fun t r manifest hr hstate => committed_by hr hstate
      refused := fun before call rest e _ hrefused => by
        rw [after_append, Machine.run_cons, Machine.run_nil, Machine.advance, hrefused]
      repeated := fun before c between rest hcalls ⟨b, hok⟩ => repeated_of_timely (hcalls ▸ h) hok}

/-! ### A repeated prepare that is refused -/

namespace Example

def reservation : ReservationCommitment :=
  ⟨⟨1⟩, Vector.replicate 32 1, Vector.replicate 32 2, ⟨Vector.replicate 32 3⟩, ⟨10⟩, ⟨1⟩, ⟨10⟩⟩

def calls : List FederationCall :=
  [.prepare reservation, .commit ⟨1⟩ reservation.commandDigest ⟨zero32⟩ ⟨5⟩, .prepare reservation]

end Example

/-- The prepare is repeated after the commit, and refused as a conflict. -/
theorem repeated_after_commit : ¬∀ calls, Federated calls := by
  intro h
  have hagain := (h Example.calls).repeated [] Example.reservation
    [.commit ⟨1⟩ Example.reservation.commandDigest ⟨zero32⟩ ⟨5⟩] [] rfl ⟨_, rfl⟩
  have hrefused : (after [.prepare Example.reservation, .commit ⟨1⟩ Example.reservation.commandDigest ⟨zero32⟩ ⟨5⟩]).prepare
      Example.reservation = .error .duplicateConflict := by decide +kernel
  cases hrefused.symm.trans hagain

end FederationBook
end CsMail
