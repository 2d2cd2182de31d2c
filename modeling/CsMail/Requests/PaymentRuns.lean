import CsMail.Application.Soundness
import CsMail.Protocol.PaymentWork

/-! No payment work is lost.

The host puts the effects of a committed transition into its outbox. Over every run,
whatever waits for the processor has waited since a transition that emitted it
(`payment_work`), and an operation is emitted under its own identifier only. -/
namespace CsMail
open Library

variable [Crypto]

namespace StoreState

/-- The consequence the kernel finds for an input, with the relationship it is for. -/
def consequence (w : StoreState) : StoreInput → Except EngineError (Option (RelationshipRef × TransitionManifest))
  | .register .. | .admitFree .. => .ok none
  | .execute relationship lane command context => do
    let (engine, history) ← w.read relationship
    let m ← (transition (engine.snapshot history lane) command context).mapError .protocol
    .ok (some (relationship, m))
  | .receiveNative relationship lane incoming context => do
    let (engine, history) ← w.read relationship
    let m ← (receiveNativeRequest (engine.snapshot history lane) incoming context).mapError .protocol
    .ok (m.map (relationship, ·))
  | .acceptLane relationship lane grant context => do
    let (engine, history) ← w.read relationship
    let acceptance ← LaneAcceptance.decide (engine.snapshot history lane) grant context
    .ok (acceptance.map fun a => (relationship, a.settlement))

/-- The effects that committing an input puts into the outbox; a refused input emits none. -/
def emits (w : StoreState) (i : StoreInput) : List (RelationshipRef × EffectIntent) :=
  match w.step i, w.consequence i with
  | .ok _, .ok (some (relationship, m)) => m.outboxIntents.map (relationship, ·)
  | _, _ => []

/-- The payment records of a relationship. -/
def paymentsOf (w : StoreState) (R : RelationshipRef) : SortedMap RequestId RequestFinancials :=
  ((w.relationships.get? R).map (·.payments)).getD ∅

/-- This is asked of the processor about the operation of a request, and not yet answered. -/
def Waits (w : StoreState) (R : RelationshipRef) (request : RequestId) (operation : PaymentOperationId)
    (asked : ProcessorRequest) : Prop :=
  ∃ f, (w.paymentsOf R).get? request = some f ∧ f.pendingPayment operation = some asked

/-- The operation a request knows under this identifier. -/
def operationOf (w : StoreState) (R : RelationshipRef) (request : RequestId) (id : PaymentOperationId) :
    Option PaymentOperation := ((w.paymentsOf R).get? request).bind (·.operation id)

variable {w w' : StoreState} {i : StoreInput} {R : RelationshipRef}

/-! ### One step -/

/-- One relationship's records take a payment step, and the others' stay. -/
def PaysAt (w w' : StoreState) (emitted : List (RelationshipRef × EffectIntent)) : Prop :=
  (emitted = [] ∧ ∀ R, w'.paymentsOf R = w.paymentsOf R) ∨ ∃ R effects, emitted = effects.map (R, ·) ∧
    PaymentStep (w.paymentsOf R) (w'.paymentsOf R) (paymentsIn effects) ∧
    ∀ R', R' ≠ R → w'.paymentsOf R' = w.paymentsOf R'

omit [Crypto] in
theorem paymentsOf_of_get? {e : EngineState} (he : w.relationships.get? R = some e) : w.paymentsOf R = e.payments := by
  rw [paymentsOf, he]
  rfl

omit [Crypto] in
theorem paymentsOf_insert (histories : SortedMap RequestHistoryRef RequestHistory) (R : RelationshipRef)
    (e : EngineState) (R' : RelationshipRef) :
    (⟨w.relationships.insert R e, histories⟩ : StoreState).paymentsOf R' =
      if R' = R then e.payments else w.paymentsOf R' := by
  rw [paymentsOf, SortedMap.get?_insert]
  split_ifs with heq
  · rfl
  · rfl

theorem commit_pays {e : EngineState} {h : RequestHistory} {lane : Option SenderScopedLane}
    {m : TransitionManifest} {extra : List ScheduleChange} (hread : w.read R = .ok (e, h))
    (hpays : m.PaysFrom (e.snapshot h lane)) (hcommit : w.commit R e m extra = .ok w') :
    w.PaysAt w' (m.outboxIntents.map (R, ·)) := by
  obtain ⟨revision, ledger, -, rfl⟩ := commit_eq_ok hcommit
  obtain ⟨he, -⟩ := read_eq_ok hread
  refine .inr ⟨R, m.outboxIntents, rfl, ?_, fun R' hne => ?_⟩
  · rw [paymentsOf_insert, if_pos rfl, paymentsOf_of_get? he]
    exact hpays
  · rw [paymentsOf_insert, if_neg hne]

theorem step_pays (h : w.step i = .ok w') : w.PaysAt w' (w.emits i) := by
  unfold emits
  rw [h]
  cases i with
  | register R H sender recipient now unit =>
    refine .inl ⟨rfl, fun R' => ?_⟩
    simp only [step, register, bind_eq_ok, refuseIf_eq_ok, exists_const, not_or, Bool.not_eq_true] at h
    obtain ⟨⟨hnew, -⟩, -, h⟩ := h
    cases h
    rw [paymentsOf_insert]
    split_ifs with heq
    · rw [heq, paymentsOf, SortedMap.contains_eq_false.mp hnew]
      rfl
    · rfl
  | execute R lane command context =>
    simp only [step, bind_eq_ok, mapError_eq_ok, Prod.exists] at h
    obtain ⟨e, history, hread, m, htransition, hcommit⟩ := h
    simp only [consequence, hread, ok_bind, htransition, Except.mapError]
    exact commit_pays hread (transition_pays htransition) hcommit
  | receiveNative R lane incoming context =>
    simp only [step, bind_eq_ok, mapError_eq_ok, Prod.exists] at h
    obtain ⟨e, history, hread, m, hreceive, h⟩ := h
    simp only [consequence, hread, ok_bind, hreceive, Except.mapError]
    cases m with
    | none =>
      cases h
      exact .inl ⟨rfl, fun _ => rfl⟩
    | some m => exact commit_pays hread (receiveNativeRequest_pays hreceive) h
  | acceptLane R lane grant context =>
    simp only [step, bind_eq_ok, Prod.exists] at h
    obtain ⟨e, history, hread, a, hdecide, h⟩ := h
    simp only [consequence, hread, ok_bind, hdecide]
    cases a with
    | none =>
      cases h
      exact .inl ⟨rfl, fun _ => rfl⟩
    | some a => exact commit_pays hread (acceptExpressLane_pays (decide_eq_ok hdecide).1) h
  | admitFree R lane request record policy now =>
    refine .inl ⟨rfl, fun R' => ?_⟩
    simp only [step, admitFree, bind_eq_ok, okOr_eq_ok, Prod.exists] at h
    obtain ⟨e, history, hread, plan, -, -, -, revision, -, h⟩ := h
    cases h
    rw [paymentsOf_insert]
    split_ifs with heq
    · rw [heq, paymentsOf_of_get? (read_eq_ok hread).1]
    · rfl

end StoreState

/-! ### What a payment step does to what waits -/

namespace PaymentStep
variable {payments payments' : SortedMap RequestId RequestFinancials}
  {emitted : List (RequestId × PaymentOperationId)} {request : RequestId}

theorem due (h : PaymentStep payments payments' emitted) {f' : RequestFinancials}
    (hf' : payments'.get? request = some f') {id : PaymentOperationId} {asked : ProcessorRequest}
    (hdue : f'.Due id asked) :
    (∃ f, payments.get? request = some f ∧ f.Due id asked) ∨ (request, id) ∈ emitted := by
  cases h with
  | kept => exact .inl ⟨f', hf', hdue⟩
  | created hnew hrecord =>
    rw [SortedMap.get?_insert] at hf'
    split_ifs at hf' with heq
    · cases hf'
      rw [heq, (RequestFinancials.new_names hrecord).1 id asked hdue]
      exact .inr (List.mem_singleton_self _)
    · exact .inl ⟨f', hf', hdue⟩
  | moved hf hcall =>
    rw [SortedMap.get?_insert] at hf'
    split_ifs at hf' with heq
    · cases hf'
      rw [heq]
      rcases (RequestFinancials.perform_names hcall).due id asked hdue with hbefore | hnamed
      · exact .inl ⟨_, hf, hbefore⟩
      · exact .inr (List.mem_map_of_mem hnamed)
    · exact .inl ⟨f', hf', hdue⟩

theorem known (h : PaymentStep payments payments' emitted) {id : PaymentOperationId}
    (hid : (request, id) ∈ emitted) : ∃ o, (payments'.get? request).bind (·.operation id) = some o := by
  cases h with
  | kept => cases hid
  | created hnew hrecord =>
    cases List.mem_singleton.mp hid
    rw [SortedMap.get?_insert_self]
    exact ⟨_, (RequestFinancials.new_names hrecord).2⟩
  | moved hf hcall =>
    obtain ⟨id', hid', heq⟩ := List.mem_map.mp hid
    cases heq
    rw [SortedMap.get?_insert_self]
    exact (RequestFinancials.perform_names hcall).known id hid'

theorem operation (h : PaymentStep payments payments' emitted) {id : PaymentOperationId} {o : PaymentOperation}
    (ho : (payments.get? request).bind (·.operation id) = some o) :
    (payments'.get? request).bind (·.operation id) = some o := by
  cases h with
  | kept => exact ho
  | created hnew hrecord =>
    rw [SortedMap.get?_insert]
    split_ifs with heq
    · rw [heq, hnew] at ho
      cases ho
    · exact ho
  | moved hf hcall =>
    rw [SortedMap.get?_insert]
    split_ifs with heq
    · rw [heq, hf] at ho
      exact RequestFinancials.perform_operation hcall ho
    · exact ho

end PaymentStep

namespace StoreState
variable {w w' : StoreState} {i : StoreInput} {R : RelationshipRef} {request : RequestId}
  {id : PaymentOperationId}

omit [Crypto] in
/-- Every record is linked, so what it asks for is what is due. -/
theorem Sound.waits_iff (hw : w.Sound) {asked : ProcessorRequest} :
    w.Waits R request id asked ↔ ∃ f, (w.paymentsOf R).get? request = some f ∧ f.Due id asked := by
  refine exists_congr fun f => and_congr_right fun hf => ?_
  cases he : w.relationships.get? R with
  | none =>
    rw [paymentsOf, he] at hf
    cases hf
  | some e =>
    rw [paymentsOf_of_get? he] at hf
    have hagreement := (hw.engines R e he).agreement
    cases hr : e.protocol.requests.get? request with
    | none =>
      rw [hagreement.owned request hr] at hf
      cases hf
    | some r =>
      obtain ⟨f₀, hf₀, -, hlinked, -⟩ := hagreement.paid request r hr
      cases hf.symm.trans hf₀
      exact hlinked.pendingPayment_iff

theorem step_waits (hw : w.Sound) (hw' : w'.Sound) (h : w.step i = .ok w') {asked : ProcessorRequest}
    (hwaits : w'.Waits R request id asked) :
    w.Waits R request id asked ∨ (R, .executePayment request id) ∈ w.emits i := by
  obtain ⟨f', hf', hdue⟩ := hw'.waits_iff.mp hwaits
  rcases step_pays h with ⟨-, hsame⟩ | ⟨R', effects, hemits, hstep, hother⟩
  · rw [hsame] at hf'
    exact .inl (hw.waits_iff.mpr ⟨f', hf', hdue⟩)
  · by_cases hR : R = R'
    · subst hR
      rcases hstep.due hf' hdue with hbefore | hemitted
      · exact .inl (hw.waits_iff.mpr hbefore)
      · rw [hemits]
        exact .inr (List.mem_map_of_mem (mem_paymentsIn.mp hemitted))
    · rw [hother R hR] at hf'
      exact .inl (hw.waits_iff.mpr ⟨f', hf', hdue⟩)

theorem step_known (h : w.step i = .ok w') (hemitted : (R, .executePayment request id) ∈ w.emits i) :
    ∃ o, w'.operationOf R request id = some o := by
  rcases step_pays h with ⟨hemits, -⟩ | ⟨R', effects, hemits, hstep, -⟩
  · rw [hemits] at hemitted
    cases hemitted
  · rw [hemits] at hemitted
    obtain ⟨effect, heffect, heq⟩ := List.mem_map.mp hemitted
    cases heq
    exact hstep.known (mem_paymentsIn.mpr heffect)

theorem step_operation (h : w.step i = .ok w') {o : PaymentOperation}
    (ho : w.operationOf R request id = some o) : w'.operationOf R request id = some o := by
  unfold operationOf at ho ⊢
  rcases step_pays h with ⟨-, hsame⟩ | ⟨R', effects, -, hstep, hother⟩
  · rw [hsame]
    exact ho
  · by_cases hR : R = R'
    · subst hR
      exact hstep.operation ho
    · rw [hother R hR]
      exact ho

/-! ### Runs -/

/-- Some step of the run emitted the payment. -/
def Emitted (inputs : List StoreInput) (R : RelationshipRef) (request : RequestId) (id : PaymentOperationId) : Prop :=
  ∃ earlier i later, inputs = earlier ++ i :: later ∧ (R, .executePayment request id) ∈ (run earlier).emits i

theorem run_operation (earlier later : List StoreInput) {o : PaymentOperation}
    (ho : (run earlier).operationOf R request id = some o) :
    (run (earlier ++ later)).operationOf R request id = some o := by
  rw [run, Machine.run_append]
  exact Machine.run_preserves (P := fun w => w.operationOf R request id = some o)
    (fun w i w' hw hstep => step_operation hstep hw) ho later

omit [Crypto] in
theorem operationOf_id {o : PaymentOperation} (ho : w.operationOf R request id = some o) : o.id = id := by
  obtain ⟨f, -, ho⟩ := Option.bind_eq_some_iff.mp ho
  exact RequestFinancials.operation_id ho

theorem emitted_known {inputs : List StoreInput} (h : Emitted inputs R request id) :
    ∃ o, (run inputs).operationOf R request id = some o := by
  obtain ⟨earlier, i, later, rfl, hemitted⟩ := h
  cases hstep : (run earlier).step i with
  | error e =>
    rw [emits, hstep] at hemitted
    cases hemitted
  | ok w' =>
    obtain ⟨o, ho⟩ := step_known hstep hemitted
    have hnext : run (earlier ++ [i]) = w' := (run_concat earlier i).trans (Machine.advance_of_ok hstep)
    refine ⟨o, ?_⟩
    rw [List.append_cons]
    exact run_operation (earlier ++ [i]) later (hnext ▸ ho)

/-- What waits has waited since the step that emitted it. -/
theorem waits_since_emitted (inputs : List StoreInput) {asked : ProcessorRequest}
    (h : (run inputs).Waits R request id asked) : ∃ earlier i later, inputs = earlier ++ i :: later ∧
      (R, .executePayment request id) ∈ (run earlier).emits i ∧ ¬(run earlier).Waits R request id asked ∧
      ∀ n, (run (earlier ++ i :: later.take n)).Waits R request id asked := by
  induction inputs using List.reverseRecOn with
  | nil =>
    obtain ⟨f, hf, -⟩ := h
    cases hf
  | append_singleton inputs i ih =>
    by_cases hbefore : (run inputs).Waits R request id asked
    · obtain ⟨earlier, j, later, rfl, hemitted, hnot, hall⟩ := ih hbefore
      refine ⟨earlier, j, later ++ [i], by simp, hemitted, hnot, fun n => ?_⟩
      by_cases hn : n ≤ later.length
      · rw [List.take_append_of_le_length hn]
        exact hall n
      · rw [List.take_of_length_le (by simp; omega)]
        rw [List.append_assoc, List.cons_append] at h
        exact h
    · have hstep := Machine.advance_cases step (run inputs) i
      rw [← run_concat] at hstep
      rcases hstep with hsame | hstep
      · rw [hsame] at h
        exact absurd h hbefore
      · refine ⟨inputs, i, [], rfl, ?_, hbefore, fun n => by rw [List.take_nil]; exact h⟩
        exact (step_waits (run_sound inputs) (run_sound _) hstep h).resolve_left hbefore

/-- **No payment work is lost.** In every state a run reaches, a capture, a cancellation or a
refund that is still asked of the processor has been asked in every state since a
transition that emitted its execution, and not before that transition. Whatever is emitted
is an operation of its request, under the identifier of that operation, and stays that
operation; so one operation is emitted under one identifier only. -/
theorem payment_work (inputs : List StoreInput) :
    (∀ R request id asked, (run inputs).Waits R request id asked →
      ∃ earlier i later, inputs = earlier ++ i :: later ∧
        (R, .executePayment request id) ∈ (run earlier).emits i ∧ ¬(run earlier).Waits R request id asked ∧
        ∀ n, (run (earlier ++ i :: later.take n)).Waits R request id asked) ∧
    (∀ R request id, Emitted inputs R request id → ∃ o, (run inputs).operationOf R request id = some o ∧ o.id = id) ∧
    (∀ R request id R' request' id' o, Emitted inputs R request id → Emitted inputs R' request' id' →
      (run inputs).operationOf R request id = some o → (run inputs).operationOf R' request' id' = some o → id = id') ∧
    ∀ earlier later R request id o, inputs = earlier ++ later → (run earlier).operationOf R request id = some o →
      (run inputs).operationOf R request id = some o := by
  refine ⟨fun R request id asked => waits_since_emitted inputs, fun R request id hemitted => ?_,
    fun R request id R' request' id' o _ _ ho ho' => ?_, fun earlier later R request id o hinputs ho => ?_⟩
  · obtain ⟨o, ho⟩ := emitted_known hemitted
    exact ⟨o, ho, operationOf_id ho⟩
  · exact (operationOf_id ho).symm.trans (operationOf_id ho')
  · rw [hinputs]
    exact run_operation earlier later ho

end StoreState
end CsMail
