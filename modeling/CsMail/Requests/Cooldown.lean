import CsMail.Requests.Lifecycle

/-! Waiting between requests.

A submission, a rejection and an expiry each set a waiting time in the history that every
alias shares. The history keeps the latest end of all of them, nothing shortens it, and a
submission must have waited it out, whichever alias it comes from. -/
namespace CsMail
open Library

section
variable {now : CanonicalTime} {event : EventRef} {h h' : RequestHistory} {r : RelationshipRequest}
  {l : RequestLifecycle}

/-- The end, in milliseconds, of the waiting time that goes with a new lifecycle. -/
inductive Cooldown (now : CanonicalTime) (r : RelationshipRequest) : RequestLifecycle → Nat → Prop
  | submitted {a : RequestSubmission} : Cooldown now r (.awaitingRecipientDecision a)
      (now.millis + r.terms.nextRequestBackoff.val.val)
  | rejected {a : RequestSubmission} {event : EventRef} : Cooldown now r (.rejected a event)
      (now.millis + r.terms.rejectionCooldown.val.val)
  | expired {a : RequestSubmission} {event : EventRef} : Cooldown now r (.expired a event)
      (a.decisionDeadline.millis + r.terms.expiryCooldown.val.val)

theorem extendCooldown_bounds {start : CanonicalTime} {d : Duration}
    (hstep : h.extendCooldown start d now event = .ok h') :
    h.earliestNextSubmission ≤ h'.earliestNextSubmission ∧
      start.millis + d.val.val ≤ h'.earliestNextSubmission.millis ∧ h'.level = h.level := by
  obtain ⟨next, version, hnext, -, rfl⟩ := RequestHistory.extendCooldown_eq_ok hstep
  refine ⟨le_max_left _ _, ?_, rfl⟩
  rw [← CanonicalTime.checkedAdd_eq_some.mp hnext]
  exact CanonicalTime.le_iff_millis.mp (le_max_right h.earliestNextSubmission next)

theorem recordSubmission_bounds {reservation : RequestReservation} {d : Duration}
    (hstep : h.recordSubmission reservation now d event = .ok h') :
    h.earliestNextSubmission ≤ h'.earliestNextSubmission ∧
      now.millis + d.val.val ≤ h'.earliestNextSubmission.millis ∧
      h'.level.val = h.level.val + 1 := by
  obtain ⟨next, version, level, hnext, -, hlevel, -, rfl⟩ :=
    RequestHistory.recordSubmission_eq_ok hstep
  refine ⟨le_max_left _ _, ?_, Checked.succ_eq_some.mp hlevel⟩
  rw [← CanonicalTime.checkedAdd_eq_some.mp hnext]
  exact CanonicalTime.le_iff_millis.mp (le_max_right h.earliestNextSubmission next)

theorem Ending.cooldown {s : RequestSettlement} {task : ScheduleTask}
    (hend : Ending now event h r l s h' task) :
    h.earliestNextSubmission ≤ h'.earliestNextSubmission ∧ h'.level = h.level ∧
      (∀ bound, Cooldown now r l bound → bound ≤ h'.earliestNextSubmission.millis) ∧
      l.isAwaitingRecipientDecision = false := by
  cases hend with
  | cancelled =>
    rcases RequestHistory.release_cases h r.reservation with heq | heq <;> rw [heq] <;>
      exact ⟨le_rfl, rfl, nofun, rfl⟩
  | accepted => exact ⟨le_rfl, rfl, nofun, rfl⟩
  | rejected hopen htime hcooldown | expired hopen htime hcooldown =>
    obtain ⟨hle, hbound, hlevel⟩ := extendCooldown_bounds hcooldown
    refine ⟨hle, hlevel, fun bound hc => ?_, rfl⟩
    cases hc
    exact hbound

/-- An advance never shortens the waiting time, ends it no earlier than the new lifecycle
calls for, and raises the level exactly for a submission. -/
theorem Advance.cooldown (hadvance : Advance now event h r l h') :
    h.earliestNextSubmission ≤ h'.earliestNextSubmission ∧
      (∀ bound, Cooldown now r l bound → bound ≤ h'.earliestNextSubmission.millis) ∧
      (∀ a, l = .awaitingRecipientDecision a → h.earliestNextSubmission ≤ now ∧
        a.submittedAt = now ∧ h'.level.val = h.level.val + 1) ∧
      (l.isAwaitingRecipientDecision = false → h'.level = h.level) := by
  cases hadvance with
  | submitted hopen hdeadline hcooled hhistory =>
    obtain ⟨hle, hbound, hlevel⟩ := recordSubmission_bounds hhistory
    refine ⟨hle, fun bound hc => ?_, fun a ha => ?_, nofun⟩
    · cases hc
      exact hbound
    · cases ha
      exact ⟨hcooled, rfl, hlevel⟩
  | ended hend =>
    obtain ⟨hle, hlevel, hbound, hclosed⟩ := hend.cooldown
    refine ⟨hle, hbound, fun a ha => ?_, fun _ => hlevel⟩
    rw [ha] at hclosed
    cases hclosed

end

/-! ### One step of the store -/

/-- A step advances a request that shares the history. -/
def Shares (w w' : StoreState) (H : RequestHistoryRef) (r r' : RelationshipRequest) : Prop :=
  ∃ R e, w.relationships.get? R = some e ∧ e.protocol.relationship.history = H ∧
    Becomes w w' R r r'

/-- A step submits a request that shares the history. -/
def Submits (w w' : StoreState) (H : RequestHistoryRef) (a : RequestSubmission) : Prop :=
  ∃ r r', Shares w w' H r r' ∧ r'.lifecycle = .awaitingRecipientDecision a

/-- A step at a time starts a waiting time of the history that ends at the bound. -/
def Waits (now : CanonicalTime) (w w' : StoreState) (H : RequestHistoryRef) (bound : Nat) : Prop :=
  ∃ r r', Shares w w' H r r' ∧ Cooldown now r r'.lifecycle bound

variable [Crypto] {w w' : StoreState} {now : CanonicalTime} {H : RequestHistoryRef}

theorem Shares.advance {r r' : RelationshipRequest} (hw : w.Sound) (hchange : Change now w w')
    (h : Shares w w' H r r') : ∃ event history history', w.histories.get? H = some history ∧
      w'.histories.get? H = some history' ∧ Advance now event history r r'.lifecycle history' := by
  obtain ⟨R, e, he, rfl, hbecomes⟩ := h
  obtain ⟨e', event, history, history', he', hh, hh', hadvance, -⟩ := hbecomes.advance hw hchange
  cases he.symm.trans he'
  exact ⟨event, history, history', hh, hh', hadvance⟩

/-- What a step does to a history: its cooldown only grows, and its level counts the
submissions. -/
theorem Change.cooldown (hw : w.Sound) (hchange : Change now w w') {h : RequestHistory}
    (hh : w.histories.get? H = some h) : ∃ h', w'.histories.get? H = some h' ∧
      h.earliestNextSubmission ≤ h'.earliestNextSubmission ∧
      ((∃ a, Submits w w' H a) → h'.level.val = h.level.val + 1) ∧
      ((¬∃ a, Submits w w' H a) → h'.level = h.level) := by
  rcases hchange.becomes_cases hw with ⟨hnone, hkept⟩ |
    ⟨R, e, event, h₀, h₁, r, l, version, he, hh₀, hhist, hadvance, hbecomes, hall⟩
  · obtain ⟨h', hh', hearliest, hlevel⟩ := hkept H h hh
    refine ⟨h', hh', hearliest.ge, ?_, fun _ => hlevel⟩
    rintro ⟨a, r, r', ⟨R, e, -, -, hbecomes⟩, -⟩
    exact absurd hbecomes (hnone R r r')
  · have hshares : Shares w w' e.protocol.relationship.history r {r with lifecycle := l, version} :=
      ⟨R, e, he, rfl, hbecomes⟩
    obtain ⟨hle, -, hsubmitted, hother⟩ := hadvance.cooldown
    rw [hhist, SortedMap.get?_insert]
    split_ifs with hH
    · rw [hH] at hh ⊢
      cases hh.symm.trans hh₀
      refine ⟨h₁, rfl, hle, ?_, fun hnone => hother ?_⟩
      · rintro ⟨a, q, q', ⟨R', e', -, -, hbecomes'⟩, ha⟩
        obtain ⟨-, -, rfl⟩ := hall R' q q' hbecomes'
        exact (hsubmitted a ha).2.2
      · rw [Bool.eq_false_iff, Ne, RequestLifecycle.isAwaitingRecipientDecision_iff]
        rintro ⟨a, ha⟩
        exact hnone ⟨a, r, _, hshares, ha⟩
    · refine ⟨h, hh, le_rfl, ?_, fun _ => rfl⟩
      rintro ⟨a, q, q', ⟨R', e', he', rfl, hbecomes'⟩, -⟩
      obtain ⟨rfl, -, -⟩ := hall R' q q' hbecomes'
      cases he.symm.trans he'
      exact absurd rfl hH

/-! ### Every run -/

end CsMail
