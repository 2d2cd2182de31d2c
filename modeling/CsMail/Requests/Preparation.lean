import CsMail.Requests.Agreement

/-! One preparation for each shared history.

Every alias of a principal addressing the same recipient shares one history, and the
history's pending submission says which request of which alias is being prepared. It is
set and cleared by handlers of different relationships; `Move.marks` says that each keeps
it right about its own relationship and silent about the others. -/
namespace CsMail
open Library

/-- A request being prepared. -/
def Preparing (requests : SortedMap RequestId RelationshipRequest) (id : RequestId) : Prop :=
  ∃ r, requests.get? id = some r ∧ r.lifecycle.isPreparingSubmission = true

/-- What the history says about one relationship is what the relationship holds. -/
def RequestHistory.Marks (h : RequestHistory) (home : RelationshipRef)
    (requests : SortedMap RequestId RelationshipRequest) : Prop :=
  ∀ id, h.pendingSubmission = some ⟨home, id⟩ ↔ Preparing requests id

namespace Preparing
variable {requests : SortedMap RequestId RelationshipRequest} {r r' : RelationshipRequest}
  {id : RequestId}

/-- A request that is replaced by one not being prepared. -/
theorem insert_closed (hclosed : r'.lifecycle.isPreparingSubmission = false) :
    Preparing (requests.insert r.id r') id ↔ Preparing requests id ∧ id ≠ r.id := by
  unfold Preparing
  rw [SortedMap.get?_insert]
  split_ifs with heq
  · simp [heq, hclosed]
  · simp [heq]

/-- Nothing but the prepared request is unresolved. -/
theorem eq_of_unresolved {key : RelationshipKey} {payments : SortedMap RequestId RequestFinancials}
    (hs : Agreement key requests payments) (hr : requests.get? r.id = some r)
    (hopen : r.lifecycle.isTerminal = false) (h : Preparing requests id) : id = r.id := by
  obtain ⟨q, hq, hpreparing⟩ := h
  obtain ⟨p, hp⟩ := RequestLifecycle.isPreparingSubmission_iff.mp hpreparing
  exact hs.single _ _ q r hq hr (by rw [hp]; rfl) hopen

end Preparing

section
variable {now : CanonicalTime} {event : EventRef} {key : RelationshipKey} {b b' : RequestBook}
  {r : RelationshipRequest}

/-- Two histories that agree on every reservation of other relationships. -/
def RequestHistory.SameElsewhere (home : RelationshipRef) (h h' : RequestHistory) : Prop :=
  ∀ reservation : RequestReservation, reservation.relationship ≠ home →
    (h'.pendingSubmission = some reservation ↔ h.pendingSubmission = some reservation)

/-- The end of a preparation: its reservation is gone, and it was the only one. -/
theorem marks_of_ended {r' : RelationshipRequest} {h' : RequestHistory}
    (hs : Agreement key b.requests b.payments) (hmarks : b.history.Marks key.reference b.requests)
    (hr : b.requests.get? r.id = some r) (hopen : r.lifecycle.isPreparingSubmission = true)
    (hclosed : r'.lifecycle.isPreparingSubmission = false) (hh' : h'.pendingSubmission = none) :
    h'.Marks key.reference (b.requests.insert r.id r') ∧
      b.history.SameElsewhere key.reference h' := by
  have hpending : b.history.pendingSubmission = some ⟨key.reference, r.id⟩ :=
    (hmarks r.id).mpr ⟨r, hr, hopen⟩
  obtain ⟨p, hp⟩ := RequestLifecycle.isPreparingSubmission_iff.mp hopen
  constructor
  · intro id
    rw [hh', Preparing.insert_closed hclosed]
    constructor
    · nofun
    · rintro ⟨hpreparing, hne⟩
      exact absurd (hpreparing.eq_of_unresolved hs hr (by rw [hp]; rfl)) hne
  · intro reservation helsewhere
    rw [hh', hpending]
    constructor
    · nofun
    · rintro ⟨⟩
      exact absurd rfl helsewhere

/-- A step of a request that was not being prepared and is not now. -/
theorem marks_of_kept {r' : RelationshipRequest} {h' : RequestHistory}
    (hmarks : b.history.Marks key.reference b.requests) (hr : b.requests.get? r.id = some r)
    (hopen : r.lifecycle.isPreparingSubmission = false)
    (hclosed : r'.lifecycle.isPreparingSubmission = false)
    (hh' : h'.pendingSubmission = b.history.pendingSubmission) :
    h'.Marks key.reference (b.requests.insert r.id r') ∧
      b.history.SameElsewhere key.reference h' := by
  refine ⟨fun id => ?_, fun reservation _ => by rw [hh']⟩
  rw [hh', hmarks id, Preparing.insert_closed hclosed]
  refine ⟨fun hpreparing => ⟨hpreparing, ?_⟩, fun hpreparing => hpreparing.1⟩
  rintro rfl
  obtain ⟨q, hq, hq'⟩ := hpreparing
  cases hr.symm.trans hq
  rw [hopen] at hq'
  cases hq'

theorem release_pending {h : RequestHistory} {reservation : RequestReservation}
    (hpending : h.pendingSubmission = some reservation) :
    (h.release reservation).pendingSubmission = none := by
  simp [RequestHistory.release, hpending]

/-- **The marker follows the preparation.** -/
theorem Move.marks [Crypto] (hs : Agreement key b.requests b.payments)
    (hmarks : b.history.Marks key.reference b.requests) (h : Move now event key b b') :
    b'.history.Marks key.reference b'.requests ∧
      b.history.SameElsewhere key.reference b'.history := by
  have hown : ∀ r, b.requests.get? r.id = some r → r.lifecycle.isPreparingSubmission = true →
      b.history.pendingSubmission = some r.reservation := by
    intro r hr hopen
    rw [RelationshipRequest.reservation, (hs.filed _ r hr).2.1]
    exact (hmarks r.id).mpr ⟨r, hr, hopen⟩
  cases h with
  | kept | paid => exact ⟨hmarks, fun _ _ => Iff.rfl⟩
  | @created r f capture contract p hnew hunpaid hclosed hfree hopen hrecord hfunding hhome =>
    have hreservation : r.reservation = ⟨key.reference, r.id⟩ := by
      rw [RelationshipRequest.reservation, hhome]
    constructor
    · intro id
      show some r.reservation = _ ↔ Preparing (b.requests.insert r.id r) id
      rw [hreservation]
      constructor
      · rintro ⟨⟩
        exact ⟨r, SortedMap.get?_insert_self .., by rw [hopen]; rfl⟩
      · rintro ⟨q, hq, hpreparing⟩
        rw [SortedMap.get?_insert] at hq
        split_ifs at hq with heq
        · rw [heq]
        · have hq' := hclosed q (SortedMap.mem_values.mpr ⟨id, hq⟩)
          obtain ⟨p', hp'⟩ := RequestLifecycle.isPreparingSubmission_iff.mp hpreparing
          rw [hp'] at hq'
          cases hq'
    · intro reservation helsewhere
      show some r.reservation = _ ↔ _
      rw [hreservation, hfree]
      constructor
      · rintro ⟨⟩
        exact absurd rfl helsewhere
      · nofun
  | @submitted r f p deadline h' version hr hf hopen hfunded hdeadline hcooled hhistory =>
    obtain ⟨next, v, level, -, -, -, -, rfl⟩ := RequestHistory.recordSubmission_eq_ok hhistory
    exact marks_of_ended hs hmarks hr (by rw [hopen]; rfl) rfl rfl
  | @ended r f f' e l s h' task version hr hf hsettle hend =>
    cases hend with
    | cancelled hopen =>
      have hpreparing : r.lifecycle.isPreparingSubmission = true := by rw [hopen]; rfl
      exact marks_of_ended hs hmarks hr hpreparing rfl (release_pending (hown r hr hpreparing))
    | accepted hopen => exact marks_of_kept hmarks hr (by rw [hopen]; rfl) rfl rfl
    | rejected hopen htime hcooldown | expired hopen htime hcooldown =>
      obtain ⟨next, v, -, -, rfl⟩ := RequestHistory.extendCooldown_eq_ok hcooldown
      exact marks_of_kept hmarks hr (by rw [hopen]; rfl) rfl rfl
  | @voided r f f' e receipt p version hr hf hopen hpaid hvoided =>
    have hpreparing : r.lifecycle.isPreparingSubmission = true := by rw [hopen]; rfl
    exact marks_of_ended hs hmarks hr hpreparing rfl (release_pending (hown r hr hpreparing))

end

/-! ### Every run -/

section
variable {relationships : SortedMap RelationshipRef EngineState} {H : RequestHistoryRef}
  {R : RelationshipRef} {e : EngineState} {reservation : RequestReservation}

/-- A relationship that shares the history prepares the request. -/
def Prepares (relationships : SortedMap RelationshipRef EngineState) (H : RequestHistoryRef)
    (reservation : RequestReservation) : Prop :=
  ∃ e, relationships.get? reservation.relationship = some e ∧
    e.protocol.relationship.history = H ∧ Preparing e.protocol.requests reservation.request

theorem prepares_insert_self (h : reservation.relationship = R) :
    Prepares (relationships.insert R e) H reservation ↔
      e.protocol.relationship.history = H ∧ Preparing e.protocol.requests reservation.request := by
  simp [Prepares, h]

theorem prepares_insert_ne (h : reservation.relationship ≠ R) :
    Prepares (relationships.insert R e) H reservation ↔ Prepares relationships H reservation := by
  simp [Prepares, SortedMap.get?_insert_ne _ _ h]

theorem prepares_self (he : relationships.get? R = some e) (h : reservation.relationship = R) :
    Prepares relationships H reservation ↔
      e.protocol.relationship.history = H ∧ Preparing e.protocol.requests reservation.request := by
  simp [Prepares, h, he]

end

namespace StoreState

/-- Every history says what its relationships prepare. -/
def Marked (w : StoreState) : Prop :=
  ∀ H h, w.histories.get? H = some h →
    ∀ reservation, h.pendingSubmission = some reservation ↔ Prepares w.relationships H reservation

variable {w w' : StoreState}

/-- A new relationship prepares nothing, and a new history marks nothing. -/
theorem Marked.register (hfiled : w.Filed) (hw : w.Marked) {R : RelationshipRef}
    {H : RequestHistoryRef} {e : EngineState} {h : RequestHistory}
    (hnew : w.relationships.get? R = none) (hempty : e.protocol.requests = ∅)
    (hhistory : w.histories.get? H = some h ∨
      w.histories.get? H = none ∧ h.pendingSubmission = none) :
    Marked ⟨w.relationships.insert R e, w.histories.insert H h⟩ := by
  have hsame : ∀ H' reservation, Prepares (w.relationships.insert R e) H' reservation ↔
      Prepares w.relationships H' reservation := by
    intro H' reservation
    by_cases hR : reservation.relationship = R
    · rw [prepares_insert_self hR]
      simp [Prepares, Preparing, hR, hnew, hempty]
    · exact prepares_insert_ne hR
  intro H' h' hh' reservation
  rw [hsame]
  rw [SortedMap.get?_insert] at hh'
  split_ifs at hh' with hH
  · cases hh'
    rcases hhistory with hstored | ⟨hnone, hfree⟩
    · exact hw H' h (hH ▸ hstored) reservation
    · rw [hfree]
      refine ⟨nofun, ?_⟩
      rintro ⟨e', he', heq, -⟩
      obtain ⟨h₀, hh₀, -⟩ := hfiled.shared _ e' he'
      rw [heq, hH, hnone] at hh₀
      cases hh₀
  · exact hw H' h' hh' reservation

/-- A move of one relationship keeps its history right about all of them. -/
theorem Marked.commit (hw : w.Marked) {R : RelationshipRef} {H : RequestHistoryRef}
    {e e' : EngineState} {h h' : RequestHistory} (he : w.relationships.get? R = some e)
    (hH : e.protocol.relationship.history = H) (hh : w.histories.get? H = some h)
    (hH' : e'.protocol.relationship.history = H)
    (hmarks : h'.Marks R e'.protocol.requests) (hsame : h.SameElsewhere R h') :
    Marked ⟨w.relationships.insert R e', w.histories.insert H h'⟩ := by
  intro H' h'' hh'' reservation
  rw [SortedMap.get?_insert] at hh''
  by_cases hR : reservation.relationship = R
  · obtain ⟨R', id⟩ := reservation
    cases hR
    rw [prepares_insert_self rfl, hH']
    split_ifs at hh'' with hHH
    · cases hh''
      rw [hmarks id]
      simp [hHH]
    · rw [hw H' h'' hh'', prepares_self he rfl, hH]
      simp [Ne.symm hHH]
  · rw [prepares_insert_ne hR]
    split_ifs at hh'' with hHH
    · cases hh''
      cases hHH
      rw [hsame reservation hR]
      exact hw H h hh reservation
    · exact hw H' h'' hh'' reservation

theorem Marked.change [Crypto] {now : CanonicalTime} (hsound : w.Sound) (hw : w.Marked)
    (hchange : Change now w w') : w'.Marked := by
  cases hchange with
  | kept => exact hw
  | registered hnew hpair hhistory hrecipient =>
    exact hw.register hsound.filed hnew rfl (hhistory.imp_right fun h => ⟨h.1, by rw [h.2]; rfl⟩)
  | @committed R e h lane context state m revision ledger extra he hh hnow hconsequence =>
    have hs := hsound.engines R e he
    have hreference := hsound.filed.reference _ h hh
    have hmarks : h.Marks e.protocol.relationship.key.reference e.protocol.requests := by
      intro id
      rw [hs.reference, hw _ h hh, prepares_self he rfl]
      simp
    obtain ⟨hmarks', hsame⟩ :
        m.nextHistory.Marks e.protocol.relationship.key.reference m.nextState.requests ∧
          h.SameElsewhere e.protocol.relationship.key.reference m.nextHistory :=
      hconsequence.move.marks hs.agreement hmarks
    obtain ⟨hreference', -⟩ : h.SameOwner m.nextHistory := hconsequence.move.sameOwner
    rw [hreference', hreference]
    rw [hs.reference] at hmarks' hsame
    exact hw.commit he rfl hh hconsequence.history hmarks' hsame
  | @delivered R e revision messages extra he =>
    intro H h hh reservation
    rw [hw H h hh reservation]
    by_cases hR : reservation.relationship = R
    · rw [prepares_insert_self hR, prepares_self he hR]
    · rw [prepares_insert_ne hR]

end StoreState

/-- **One preparation for each history.** In every state a run reaches, the shared history
names exactly the request that one of its relationships prepares. So no two aliases
prepare at once, and no relationship has two unresolved requests. -/
theorem one_preparation [Crypto] (inputs : List StoreInput) :
    (∀ H h, (StoreState.run inputs).histories.get? H = some h → ∀ reservation,
      h.pendingSubmission = some reservation ↔
        Prepares (StoreState.run inputs).relationships H reservation) ∧
    (∀ H reservation reservation', Prepares (StoreState.run inputs).relationships H reservation →
      Prepares (StoreState.run inputs).relationships H reservation' →
      reservation = reservation') ∧
    (∀ R e, (StoreState.run inputs).relationships.get? R = some e →
      ∀ id id' r r', e.protocol.requests.get? id = some r →
        e.protocol.requests.get? id' = some r' → r.lifecycle.isTerminal = false →
        r'.lifecycle.isTerminal = false → id = id') := by
  have hmarked : (StoreState.run inputs).Marked := by
    refine StoreState.sound_invariant ?_ (fun _ _ _ hs hw hchange => hw.change hs hchange) inputs
    intro H h hh
    cases hh
  refine ⟨hmarked, fun H a a' ha ha' => ?_, fun R e he => (engine_sound inputs he).agreement.single⟩
  obtain ⟨e, he, hH, -⟩ := id ha
  obtain ⟨h, hh, -⟩ := (StoreState.run_sound inputs).filed.shared _ e he
  rw [hH] at hh
  have hpending := (hmarked H h hh a).mpr ha
  rw [(hmarked H h hh a').mpr ha'] at hpending
  exact (Option.some.inj hpending).symm

end CsMail
