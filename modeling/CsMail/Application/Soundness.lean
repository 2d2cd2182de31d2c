import CsMail.Application.StoreProofs
import CsMail.Protocol.BookProofs

/-! Every stored relationship is sound.

In every state a run reaches, a relationship's requests agree with their payment
records, and its ledger holds exactly the balances those records stand for. So every
snapshot the host assembles passes the kernel's own checks of it. -/
namespace CsMail
open Library Journal

variable [Crypto]

namespace Move
variable {now : CanonicalTime} {event : EventRef} {key : RelationshipKey} {b b' : RequestBook}

/-- A request past its preparation was already there. -/
theorem known {id : RequestId} {r : RelationshipRequest} (h : Move now event key b b')
    (hr : b'.requests.get? id = some r) (hl : r.lifecycle.isPreparingSubmission = false) :
    ∃ q, b.requests.get? id = some q := by
  cases h with
  | kept => exact ⟨r, hr⟩
  | created _ _ _ _ hopen =>
    rw [SortedMap.get?_insert] at hr
    split_ifs at hr
    · cases hr
      rw [hopen] at hl
      cases hl
    · exact ⟨r, hr⟩
  | paid => exact ⟨r, hr⟩
  | submitted _ hq | ended hq | voided hq =>
    rw [SortedMap.get?_insert] at hr
    split_ifs at hr with heq
    · exact ⟨_, heq ▸ hq⟩
    · exact ⟨r, hr⟩

end Move

namespace EngineState

/-- The requests and the ledger of a relationship, as every run keeps them. -/
structure Sound (R : RelationshipRef) (e : EngineState) : Prop where
  reference : e.protocol.relationship.key.reference = R
  agreement : Agreement e.protocol.relationship.key e.protocol.requests e.payments
  named : ∀ id r, e.protocol.requests.get? id = some r →
    r.lifecycle.isPreparingSubmission = false → id.val ≠ 0
  conserved : e.ledger.view.Conserved
  balances : ∀ a, e.ledger.view.signedBalance a = sheetOf e.payments a

omit [Crypto] in
theorem Sound.new (R : RelationshipRef) (H : RequestHistoryRef) (sender recipient : ProtocolIdentity)
    (now : CanonicalTime) (unit : SettlementUnit) :
    (EngineState.new (.initialScoped R H sender recipient now) unit).Sound R where
  reference := rfl
  agreement := .empty
  named := fun _ _ hr => by simp [EngineState.new, ProtocolState.initialScoped] at hr
  conserved := LedgerState.new_conserved unit
  balances := fun _ => rfl

omit [Crypto] in
theorem nonzero_of_validate {s : ProtocolState} (h : s.validate = .ok ()) {id : RequestId}
    {r : RelationshipRequest} (hr : s.requests.get? id = some r) : id.val ≠ 0 := by
  simp only [ProtocolState.validate, refuseIf_eq_ok, not_or, Bool.not_eq_true,
    List.any_eq_false] at h
  have := h.2 (id, r) (SortedMap.mem_entries.mpr hr)
  simp only [ProtocolState.misfiled, decide_eq_false_iff_not, not_or, ne_eq, Decidable.not_not] at this
  rw [this.1]
  exact this.2.1

omit [Crypto] in
theorem validate_of_snapshot {s : SettlementSnapshot} {context : TransitionContext}
    (h : validateSnapshot s context = .ok ()) : s.state.validate = .ok () := by
  simp only [validateSnapshot, bind_eq_ok] at h
  obtain ⟨-, -, -, -, -, -, ⟨⟩, hvalid, -⟩ := h
  exact hvalid

theorem Sound.next {R : RelationshipRef} {e : EngineState} {h : RequestHistory}
    {lane : Option SenderScopedLane} {context : TransitionContext} {state : RelationshipState}
    {m : TransitionManifest} {revision : U64} {ledger : LedgerState} {extra : List ScheduleChange}
    (hs : e.Sound R) (hconsequence : Consequence (e.snapshot h lane) context state m)
    (hledger : e.ledger.apply m.expectedLedgerRevision m.ledgerBatch = .ok ledger) :
    (e.next revision ledger m extra).Sound R := by
  have hkey : m.nextState.relationship.key = e.protocol.relationship.key := hconsequence.key
  simp only [LedgerState.apply, bind_eq_ok, refuseIf_eq_ok, exists_const, Except.ok.injEq] at hledger
  obtain ⟨-, v, hv, rfl⟩ := hledger
  obtain ⟨-, hconserved, -, -, hposted⟩ := LedgerView.apply_spec hv
  refine ⟨hkey ▸ hs.reference, ?_, fun id r hr hl => ?_, hconserved, fun a => ?_⟩
  · show Agreement m.nextState.relationship.key _ _
    rw [hkey]
    exact hconsequence.move.agreement hs.agreement
  · obtain ⟨q, hq⟩ := hconsequence.move.known hr hl
    exact nonzero_of_validate (validate_of_snapshot hconsequence.valid) hq
  · show v.signedBalance a = sheetOf m.nextPayments a
    rw [hposted, hs.balances a]
    exact ((hconsequence.move.keeps hs.agreement rfl).posted a).symm

end EngineState

/-! ### Histories are filed under their own reference -/

namespace RequestHistory
variable {h h' : RequestHistory}

/-- What no step of a history changes. -/
def SameOwner (h h' : RequestHistory) : Prop :=
  h'.reference = h.reference ∧ h'.recipient = h.recipient

omit [Crypto] in
theorem extendCooldown_eq_ok {start now : CanonicalTime} {d : Duration} {event : EventRef}
    (hstep : h.extendCooldown start d now event = .ok h') :
    ∃ next version, start.checkedAdd d = some next ∧ h.version.checkedNext = some version ∧
      h' = {h with
        earliestNextSubmission := max h.earliestNextSubmission next
        version
        lastEvent := some event
        changedAt := now} := by
  simp only [extendCooldown, bind_eq_ok, okOr_eq_ok] at hstep
  obtain ⟨next, hnext, version, hversion, hstep⟩ := hstep
  exact ⟨next, version, hnext, hversion, (Except.ok.inj hstep).symm⟩

omit [Crypto] in
theorem recordSubmission_eq_ok {reservation : RequestReservation} {now : CanonicalTime}
    {backoff : Duration} {event : EventRef}
    (hstep : h.recordSubmission reservation now backoff event = .ok h') :
    ∃ next version level, now.checkedAdd backoff = some next ∧
      h.version.checkedNext = some version ∧ Checked.succ h.level = some level ∧
      h.pendingSubmission = some reservation ∧ h' = {h with
        level
        earliestNextSubmission := max h.earliestNextSubmission next
        pendingSubmission := none
        version
        lastEvent := some event
        changedAt := now} := by
  simp only [recordSubmission, bind_eq_ok, refuseIf_eq_ok, okOr_eq_ok, exists_const, ne_eq,
    Decidable.not_not] at hstep
  obtain ⟨hpending, level, hlevel, h₁, hextend, hstep⟩ := hstep
  obtain ⟨next, version, hnext, hversion, rfl⟩ := extendCooldown_eq_ok hextend
  exact ⟨next, version, level, hnext, hversion, hlevel, hpending, (Except.ok.inj hstep).symm⟩

omit [Crypto] in
theorem release_cases (h : RequestHistory) (reservation : RequestReservation) :
    h.release reservation = h ∨ h.release reservation = {h with pendingSubmission := none} := by
  unfold release
  split_ifs
  · exact .inr rfl
  · exact .inl rfl

omit [Crypto] in
theorem release_sameOwner (h : RequestHistory) (reservation : RequestReservation) :
    h.SameOwner (h.release reservation) := by
  rcases release_cases h reservation with heq | heq <;> rw [heq] <;> exact ⟨rfl, rfl⟩

end RequestHistory

open RequestHistory

omit [Crypto] in
theorem Ending.sameOwner {now : CanonicalTime} {event : EventRef} {h h' : RequestHistory}
    {r : RelationshipRequest} {l : RequestLifecycle} {s : RequestSettlement} {task : ScheduleTask}
    (hend : Ending now event h r l s h' task) : h.SameOwner h' := by
  cases hend with
  | cancelled => exact release_sameOwner h _
  | accepted => exact ⟨rfl, rfl⟩
  | rejected _ _ hcooldown | expired _ _ hcooldown =>
    obtain ⟨next, version, -, -, rfl⟩ := extendCooldown_eq_ok hcooldown
    exact ⟨rfl, rfl⟩

theorem Move.sameOwner {now : CanonicalTime} {event : EventRef} {key : RelationshipKey}
    {b b' : RequestBook} (h : Move now event key b b') : b.history.SameOwner b'.history := by
  cases h with
  | kept | created | paid => exact ⟨rfl, rfl⟩
  | submitted _ _ _ _ _ _ _ hhistory =>
    obtain ⟨next, version, level, -, -, -, -, rfl⟩ := recordSubmission_eq_ok hhistory
    exact ⟨rfl, rfl⟩
  | ended _ _ _ hend => exact hend.sameOwner
  | voided => exact release_sameOwner _ _

namespace StoreState

/-- Every history is stored under its reference, and every relationship shares one that
its recipient owns. -/
structure Filed (w : StoreState) : Prop where
  reference : ∀ H h, w.histories.get? H = some h → h.reference = H
  shared : ∀ R e, w.relationships.get? R = some e →
    ∃ h, w.histories.get? e.protocol.relationship.history = some h ∧
      h.recipient = e.protocol.relationship.key.recipient

omit [Crypto] in
/-- Storing a relationship with its history keeps every history filed. -/
theorem Filed.store {w : StoreState} (hw : w.Filed) {R : RelationshipRef} {e : EngineState}
    {H : RequestHistoryRef} {h : RequestHistory} (hreference : h.reference = H)
    (hrecipient : ∀ h₀, w.histories.get? H = some h₀ → h.recipient = h₀.recipient)
    (he : e.protocol.relationship.history = H)
    (howner : h.recipient = e.protocol.relationship.key.recipient) :
    Filed ⟨w.relationships.insert R e, w.histories.insert H h⟩ := by
  constructor
  · intro H' h' hh'
    rw [SortedMap.get?_insert] at hh'
    split_ifs at hh' with hH
    · cases hh'
      exact hreference.trans hH.symm
    · exact hw.reference H' h' hh'
  · have hkept : ∀ H' h₀ owner, w.histories.get? H' = some h₀ → h₀.recipient = owner →
        ∃ h', (w.histories.insert H h).get? H' = some h' ∧ h'.recipient = owner := by
      intro H' h₀ owner hh₀ howner
      rw [SortedMap.get?_insert]
      split_ifs with hH
      · exact ⟨h, rfl, (hrecipient h₀ (hH ▸ hh₀)).trans howner⟩
      · exact ⟨h₀, hh₀, howner⟩
    intro R' e' he'
    rw [SortedMap.get?_insert] at he'
    split_ifs at he' with hR
    · cases he'
      exact ⟨h, by rw [he, SortedMap.get?_insert_self], howner⟩
    · obtain ⟨h₀, hh₀, howner₀⟩ := hw.shared R' e' he'
      exact hkept _ h₀ _ hh₀ howner₀

/-- **Histories stay filed.** -/
theorem Filed.change {now : CanonicalTime} {w w' : StoreState} (hw : w.Filed)
    (hchange : Change now w w') : w'.Filed := by
  cases hchange with
  | kept => exact hw
  | registered hnew hpair hhistory hrecipient =>
    refine hw.store ?_ ?_ rfl hrecipient
    · rcases hhistory with hstored | ⟨-, rfl⟩
      · exact hw.reference _ _ hstored
      · rfl
    · intro h₀ hh₀
      rcases hhistory with hstored | ⟨hnone, -⟩
      · cases hh₀.symm.trans hstored
        rfl
      · rw [hnone] at hh₀
        cases hh₀
  | @committed R e h lane context state m revision ledger extra he hh hnow hconsequence =>
    obtain ⟨hreference, hrecipient⟩ : h.SameOwner m.nextHistory := hconsequence.move.sameOwner
    rw [hw.reference _ _ hh] at hreference
    obtain ⟨h₀, hh₀, howner⟩ := hw.shared _ _ he
    cases hh.symm.trans hh₀
    rw [hreference]
    refine hw.store hreference ?_ hconsequence.history ?_
    · intro h₀ hh₀
      cases hh.symm.trans hh₀
      exact hrecipient
    · rw [hrecipient, howner]
      exact congrArg _ hconsequence.key.symm
  | @delivered R e revision messages extra he =>
    refine ⟨hw.reference, fun R' e' he' => ?_⟩
    rw [SortedMap.get?_insert] at he'
    split_ifs at he' with hR
    · cases he'
      exact hw.shared R e he
    · exact hw.shared R' e' he'

/-! ### Every run is sound -/

structure Sound (w : StoreState) : Prop where
  filed : w.Filed
  engines : ∀ R e, w.relationships.get? R = some e → e.Sound R

theorem Sound.change {now : CanonicalTime} {w w' : StoreState} (hw : w.Sound)
    (hchange : Change now w w') : w'.Sound := by
  refine ⟨hw.filed.change hchange, ?_⟩
  refine change_engine (P := fun R e => e.Sound R) EngineState.Sound.new ?_ ?_ hw.engines hchange
  · intro R e h lane context state m revision ledger extra hs hconsequence hledger _
    exact hs.next hconsequence hledger
  · intro R e revision messages extra hs _
    exact ⟨hs.reference, hs.agreement, hs.named, hs.conserved, hs.balances⟩

omit [Crypto] in
theorem Sound.empty : empty.Sound where
  filed := ⟨fun H h hh => by simp [StoreState.empty] at hh,
    fun R e he => by simp [StoreState.empty] at he⟩
  engines := fun R e he => by simp [StoreState.empty] at he

/-- **Every state a run reaches is sound.** -/
theorem run_sound (inputs : List StoreInput) : (run inputs).Sound :=
  run_invariant .empty (fun _ _ _ hw hchange => hw.change hchange) inputs

/-- What sound states keep, every run keeps. -/
theorem sound_invariant {P : StoreState → Prop} (hempty : P empty)
    (hchange : ∀ now w w', w.Sound → P w → Change now w w' → P w') (inputs : List StoreInput) :
    P (run inputs) := by
  have := run_invariant (P := fun w => w.Sound ∧ P w) ⟨.empty, hempty⟩
    (fun now w w' hw h => ⟨hw.1.change h, hchange now w w' hw.1 hw.2 h⟩) inputs
  exact this.2

end StoreState

/-- Every stored relationship is sound. -/
theorem engine_sound (inputs : List StoreInput) {R : RelationshipRef} {e : EngineState}
    (he : (StoreState.run inputs).relationships.get? R = some e) : e.Sound R :=
  (StoreState.run_sound inputs).engines R e he

/-! ### The kernel's checks of a sound relationship -/

namespace EngineState.Sound
variable {R : RelationshipRef} {e : EngineState} {r : RelationshipRequest}

omit [Crypto] in
theorem keyed (hs : e.Sound R) : e.protocol.Keyed := fun id r hr => (hs.agreement.filed id r hr).1

omit [Crypto] in
/-- While some request is past its preparation, the stored state is valid. -/
theorem validate (hs : e.Sound R) {id : RequestId} (hr : e.protocol.requests.get? id = some r)
    (hopen : r.lifecycle.isTerminal = false) (hl : r.lifecycle.isPreparingSubmission = false) :
    e.protocol.validate = .ok () := by
  simp only [ProtocolState.validate, refuseIf_eq_ok, not_or, not_lt, Bool.not_eq_true,
    List.any_eq_false]
  refine ⟨SortedMap.countP_values_le_one fun k k' v v' hv hv' h h' => ?_, fun x hx => ?_⟩
  · exact hs.agreement.single k k' v v' hv hv' (by simpa using h) (by simpa using h')
  · obtain ⟨k, q⟩ := x
    have hq := SortedMap.mem_entries.mp hx
    obtain ⟨hid, hhome, hsender, hrecipient⟩ := hs.agreement.filed k q hq
    have hnonzero : k.val ≠ 0 := by
      by_cases hpreparing : q.lifecycle.isPreparingSubmission = true
      · have hq' : q.lifecycle.isTerminal = false := by
          obtain ⟨p, hp⟩ := RequestLifecycle.isPreparingSubmission_iff.mp hpreparing
          rw [hp]
          rfl
        rw [hs.agreement.single k id q r hq hr hq' hopen]
        exact hs.named id r hr hl
      · exact hs.named k q hq (Bool.eq_false_iff.mpr hpreparing)
    simp [ProtocolState.misfiled, hid, hnonzero, hhome, hsender, hrecipient]

omit [Crypto] in
theorem activeRequest (hs : e.Sound R) (hr : e.protocol.requests.get? r.id = some r)
    (hopen : r.lifecycle.isTerminal = false) : e.protocol.activeRequest = some r := by
  cases hactive : e.protocol.activeRequest with
  | none =>
    have := List.find?_eq_none.mp hactive r (SortedMap.mem_values.mpr ⟨r.id, hr⟩)
    simp [hopen] at this
  | some q =>
    obtain ⟨hq, hq'⟩ := ProtocolState.activeRequest_eq_some hs.keyed hactive
    have hid := hs.agreement.single _ _ q r hq hr hq' hopen
    rw [hid] at hq
    exact hq.symm.trans hr

end EngineState.Sound
end CsMail
