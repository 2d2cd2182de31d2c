import CsMail.Requests.Agreement

/-! A request's life.

A request is prepared, submitted and decided, or its preparation is cancelled; every step
of the store advances at most one request, and a finished one stays as it is. `Advance`
lists what a step does to the request it advances and to the shared history. -/
namespace CsMail
open Library

section
variable {now : CanonicalTime} {event : EventRef} {key : RelationshipKey} {b b' : RequestBook}

/-- How one step advances a request and the history it shares. -/
inductive Advance (now : CanonicalTime) (event : EventRef) (h : RequestHistory)
    (r : RelationshipRequest) : RequestLifecycle → RequestHistory → Prop
  | submitted {p : SubmissionPreparation} {deadline : CanonicalTime} {h' : RequestHistory}
    (hopen : r.lifecycle = .preparingSubmission p)
    (hdeadline : now.checkedAdd r.terms.decisionWindow = some deadline)
    (hcooled : h.earliestNextSubmission ≤ now)
    (hhistory : h.recordSubmission r.reservation now r.terms.nextRequestBackoff event = .ok h') :
    Advance now event h r (.awaitingRecipientDecision ⟨now, deadline⟩) h'
  | ended {l : RequestLifecycle} {s : RequestSettlement} {h' : RequestHistory} {task : ScheduleTask}
    (hend : Ending now event h r l s h' task) : Advance now event h r l h'

/-- A history whose cooldown and level stay as they are. -/
def RequestHistory.SameCooldown (h h' : RequestHistory) : Prop :=
  h'.earliestNextSubmission = h.earliestNextSubmission ∧ h'.level = h.level

/-- **One request at a time.** A move advances one request, or leaves every request and
the cooldown of the history as they were. It announces exactly the request it submits. -/
theorem Move.requests_cases [Crypto] (h : Move now event key b b') :
    ((∀ id r, b.requests.get? id = some r → b'.requests.get? id = some r) ∧
      b.history.SameCooldown b'.history ∧ b'.submissions = b.submissions) ∨
    ∃ r l version, b.requests.get? r.id = some r ∧ Advance now event b.history r l b'.history ∧
      b'.requests = b.requests.insert r.id {r with lifecycle := l, version} ∧
      b'.submissions =
        if l.isAwaitingRecipientDecision then b.submissions ++ [r.id] else b.submissions := by
  cases h with
  | kept | paid => exact .inl ⟨fun _ _ hr => hr, ⟨rfl, rfl⟩, rfl⟩
  | created hnew =>
    refine .inl ⟨fun id r hr => ?_, ⟨rfl, rfl⟩, rfl⟩
    rw [SortedMap.get?_insert]
    split_ifs with heq
    · rw [heq, hnew] at hr
      cases hr
    · exact hr
  | submitted version hr hf hopen hfunded hdeadline hcooled hhistory =>
    exact .inr ⟨_, _, _, hr, .submitted hopen hdeadline hcooled hhistory, rfl, rfl⟩
  | ended hr hf hsettle hend =>
    refine .inr ⟨_, _, _, hr, .ended hend, rfl, ?_⟩
    cases hend <;> rfl
  | voided hr hf hopen => exact .inr ⟨_, _, _, hr, .ended (.cancelled hopen), rfl, rfl⟩

/-- A move that announces nothing submits nothing. -/
theorem Move.not_submitted [Crypto] (h : Move now event key b b')
    (hquiet : b'.submissions = b.submissions) {id : RequestId} {r r' : RelationshipRequest}
    (hr : b.requests.get? id = some r) (hr' : b'.requests.get? id = some r')
    (hmoved : r'.lifecycle ≠ r.lifecycle) : r'.lifecycle.isAwaitingRecipientDecision = false := by
  rcases h.requests_cases with ⟨hkept, -⟩ | ⟨q, l, version, hq, hadvance, hrequests, hannounced⟩
  · cases (hkept id r hr).symm.trans hr'
    exact absurd rfl hmoved
  · rw [hrequests, SortedMap.get?_insert] at hr'
    split_ifs at hr' with hid
    · cases hr'
      by_contra hawaiting
      rw [hquiet, if_pos (Bool.not_eq_false _ ▸ hawaiting)] at hannounced
      exact absurd (congrArg List.length hannounced) (by simp)
    · cases hr.symm.trans hr'
      exact absurd rfl hmoved

/-- The edges of the lifecycle, with the times they can be taken at. -/
inductive Edge (now : CanonicalTime) : RequestLifecycle → RequestLifecycle → Prop
  | submitted {p : SubmissionPreparation} {a : RequestSubmission} (htime : a.submittedAt = now) :
    Edge now (.preparingSubmission p) (.awaitingRecipientDecision a)
  | cancelled {p : SubmissionPreparation} {event : EventRef} :
    Edge now (.preparingSubmission p) (.cancelled p event)
  | accepted {a : RequestSubmission} {permission : AcceptancePermission} {event : EventRef}
    (htime : permission = .standing → now ≤ a.decisionDeadline) :
    Edge now (.awaitingRecipientDecision a) (.accepted permission a event)
  | rejected {a : RequestSubmission} {event : EventRef} (htime : now ≤ a.decisionDeadline) :
    Edge now (.awaitingRecipientDecision a) (.rejected a event)
  | expired {a : RequestSubmission} {event : EventRef} (htime : a.decisionDeadline < now) :
    Edge now (.awaitingRecipientDecision a) (.expired a event)

theorem Advance.edge {h h' : RequestHistory} {r : RelationshipRequest} {l : RequestLifecycle}
    (hadvance : Advance now event h r l h') : Edge now r.lifecycle l := by
  cases hadvance with
  | submitted hopen =>
    rw [hopen]
    exact .submitted rfl
  | ended hend =>
    cases hend with
    | cancelled hopen =>
      rw [hopen]
      exact .cancelled
    | accepted hopen htime =>
      rw [hopen]
      exact .accepted htime
    | rejected hopen htime =>
      rw [hopen]
      exact .rejected htime
    | expired hopen htime =>
      rw [hopen]
      exact .expired htime

namespace Edge
variable {l l' : RequestLifecycle}

/-- Submission facts, once there, are carried along every edge. -/
theorem submission (h : Edge now l l') {a : RequestSubmission} (ha : l.submission = some a) :
    l'.submission = some a := by
  cases h <;> simp_all [RequestLifecycle.submission]

theorem ne (h : Edge now l l') : l' ≠ l := by
  cases h <;> nofun

end Edge
end

/-! ### One step of the store -/

/-- A step changes the lifecycle of a stored request. -/
structure Becomes (w w' : StoreState) (R : RelationshipRef) (r r' : RelationshipRequest) : Prop where
  before : ∃ e, w.relationships.get? R = some e ∧ e.protocol.requests.get? r.id = some r
  after : ∃ e', w'.relationships.get? R = some e' ∧ e'.protocol.requests.get? r.id = some r'
  moved : r'.lifecycle ≠ r.lifecycle

variable [Crypto] {w w' : StoreState} {now : CanonicalTime} {R R' : RelationshipRef}

/-- What a change does to the requests of all relationships and to all histories: it
advances one request, or every stored request and cooldown stays as it is. -/
theorem Change.requests_cases (hw : w.Sound) (hchange : Change now w w') :
    ((∀ R e, w.relationships.get? R = some e → ∃ e', w'.relationships.get? R = some e' ∧
      ∀ id r, e.protocol.requests.get? id = some r → e'.protocol.requests.get? id = some r) ∧
      ∀ H h, w.histories.get? H = some h →
        ∃ h', w'.histories.get? H = some h' ∧ h.SameCooldown h') ∨
    ∃ R e e' event h h' r l version, w.relationships.get? R = some e ∧
      w'.relationships = w.relationships.insert R e' ∧
      w.histories.get? e.protocol.relationship.history = some h ∧
      w'.histories = w.histories.insert e.protocol.relationship.history h' ∧
      e.protocol.requests.get? r.id = some r ∧ Advance now event h r l h' ∧
      e'.protocol.requests = e.protocol.requests.insert r.id {r with lifecycle := l, version} := by
  have hengines : ∀ (R : RelationshipRef) (e' : EngineState),
      (∀ e, w.relationships.get? R = some e →
        ∀ id r, e.protocol.requests.get? id = some r → e'.protocol.requests.get? id = some r) →
      ∀ R₀ e, w.relationships.get? R₀ = some e →
        ∃ e₁, (w.relationships.insert R e').get? R₀ = some e₁ ∧
          ∀ id r, e.protocol.requests.get? id = some r → e₁.protocol.requests.get? id = some r := by
    intro R e' hkept R₀ e he
    rw [SortedMap.get?_insert]
    split_ifs with hR
    · exact ⟨e', rfl, hkept e (hR ▸ he)⟩
    · exact ⟨e, he, fun _ _ hr => hr⟩
  have hhistories : ∀ (H : RequestHistoryRef) (h' : RequestHistory),
      (∀ h, w.histories.get? H = some h → h.SameCooldown h') →
      ∀ H₀ h, w.histories.get? H₀ = some h →
        ∃ h₁, (w.histories.insert H h').get? H₀ = some h₁ ∧ h.SameCooldown h₁ := by
    intro H h' hkept H₀ h hh
    rw [SortedMap.get?_insert]
    split_ifs with hH
    · exact ⟨h', rfl, hkept h (hH ▸ hh)⟩
    · exact ⟨h, hh, rfl, rfl⟩
  cases hchange with
  | kept => exact .inl ⟨fun R e he => ⟨e, he, fun _ _ hr => hr⟩, fun H h hh => ⟨h, hh, rfl, rfl⟩⟩
  | registered hnew hpair hhistory =>
    refine .inl ⟨hengines _ _ fun e he => ?_, hhistories _ _ fun h hh => ?_⟩
    · rw [hnew] at he
      cases he
    · rcases hhistory with hstored | ⟨hnone, -⟩
      · cases hh.symm.trans hstored
        exact ⟨rfl, rfl⟩
      · rw [hnone] at hh
        cases hh
  | delivered he =>
    refine .inl ⟨hengines _ _ fun e₀ he₀ => ?_, fun H h hh => ⟨h, hh, rfl, rfl⟩⟩
    cases he.symm.trans he₀
    exact fun _ _ hr => hr
  | @committed R e h lane context state m revision ledger extra he hh hnow hconsequence =>
    obtain ⟨hreference, -⟩ : h.SameOwner m.nextHistory := hconsequence.move.sameOwner
    rw [hw.filed.reference _ h hh] at hreference
    rcases hconsequence.move.requests_cases with ⟨hkept, hcooldown, -⟩ |
      ⟨r, l, version, hr, hadvance, hrequests, -⟩
    · refine .inl ⟨hengines _ _ fun e₀ he₀ => ?_, hhistories _ _ fun h₀ hh₀ => ?_⟩
      · cases he.symm.trans he₀
        exact hkept
      · rw [hreference] at hh₀
        cases hh.symm.trans hh₀
        exact hcooldown
    · refine .inr ⟨R, e, _, _, h, m.nextHistory, r, l, version, he, rfl, hh, ?_, hr, hnow ▸ hadvance,
        hrequests⟩
      rw [hreference]

/-- The one request a step advances, if it advances any, and its history. -/
theorem Change.becomes_cases (hw : w.Sound) (hchange : Change now w w') :
    ((∀ R r r', ¬Becomes w w' R r r') ∧ ∀ H h, w.histories.get? H = some h →
      ∃ h', w'.histories.get? H = some h' ∧ h.SameCooldown h') ∨
    ∃ R e event h h' r l version, w.relationships.get? R = some e ∧
      w.histories.get? e.protocol.relationship.history = some h ∧
      w'.histories = w.histories.insert e.protocol.relationship.history h' ∧
      Advance now event h r l h' ∧ Becomes w w' R r {r with lifecycle := l, version} ∧
      ∀ R' q q', Becomes w w' R' q q' → R' = R ∧ q = r ∧ q' = {r with lifecycle := l, version} := by
  rcases hchange.requests_cases hw with ⟨hkept, hhistories⟩ |
    ⟨R, e, e', event, h, h', r, l, version, he, hrel, hh, hhist, hr, hadvance, hreq⟩
  · refine .inl ⟨fun R q q' ⟨⟨e₀, he₀, hq₀⟩, ⟨e₁, he₁, hq₁⟩, hmoved⟩ => ?_, hhistories⟩
    obtain ⟨e₁', he₁', hsame⟩ := hkept R e₀ he₀
    cases he₁.symm.trans he₁'
    cases hq₁.symm.trans (hsame _ _ hq₀)
    exact hmoved rfl
  · refine .inr ⟨R, e, event, h, h', r, l, version, he, hh, hhist, hadvance, ?_, ?_⟩
    · refine ⟨⟨e, he, hr⟩, ⟨e', ?_, ?_⟩, hadvance.edge.ne⟩
      · rw [hrel, SortedMap.get?_insert_self]
      · rw [hreq, SortedMap.get?_insert_self]
    rintro R' q q' ⟨⟨e₀, he₀, hq₀⟩, ⟨e₁, he₁, hq₁⟩, hmoved⟩
    rw [hrel, SortedMap.get?_insert] at he₁
    split_ifs at he₁ with hR
    · cases he₁
      cases hR
      cases he₀.symm.trans he
      rw [hreq, SortedMap.get?_insert] at hq₁
      split_ifs at hq₁ with hid
      · cases hq₁
        rw [hid] at hq₀
        exact ⟨rfl, Option.some.inj (hq₀.symm.trans hr), rfl⟩
      · cases hq₀.symm.trans hq₁
        exact absurd rfl hmoved
    · cases he₀.symm.trans he₁
      cases hq₀.symm.trans hq₁
      exact absurd rfl hmoved

/-- What a step makes of a request is an advance of it, with the history it shares. -/
theorem Becomes.advance {r r' : RelationshipRequest} (hw : w.Sound) (hchange : Change now w w')
    (h : Becomes w w' R r r') : ∃ e event history history',
      w.relationships.get? R = some e ∧
      w.histories.get? e.protocol.relationship.history = some history ∧
      w'.histories.get? e.protocol.relationship.history = some history' ∧
      Advance now event history r r'.lifecycle history' ∧
      ∃ version, r' = {r with lifecycle := r'.lifecycle, version} := by
  rcases hchange.becomes_cases hw with ⟨hnone, -⟩ |
    ⟨R₀, e, event, history, history', q, l, version, he, hh, hhist, hadvance, -, hall⟩
  · exact absurd h (hnone R r r')
  · obtain ⟨rfl, rfl, rfl⟩ := hall R r r' h
    exact ⟨e, event, history, history', he, hh, by rw [hhist, SortedMap.get?_insert_self], hadvance,
      version, rfl⟩

/-- A step changes the lifecycle of one request at most. -/
theorem Becomes.single {r₁ r₁' r₂ r₂' : RelationshipRequest} (hw : w.Sound)
    (hchange : Change now w w') (h₁ : Becomes w w' R r₁ r₁') (h₂ : Becomes w w' R' r₂ r₂') :
    R = R' ∧ r₁ = r₂ ∧ r₁' = r₂' := by
  rcases hchange.becomes_cases hw with ⟨hnone, -⟩ |
    ⟨R₀, e, event, h, h', q, l, version, -, -, -, -, -, hall⟩
  · exact absurd h₁ (hnone R r₁ r₁')
  · obtain ⟨rfl, rfl, rfl⟩ := hall R r₁ r₁' h₁
    obtain ⟨rfl, rfl, rfl⟩ := hall R' r₂ r₂' h₂
    exact ⟨rfl, rfl, rfl⟩

/-! ### Deciding and expiring -/

/-- The lifecycle a decision gives an awaited request. -/
def Decision.closing (d : Decision) (a : RequestSubmission) (now : CanonicalTime)
    (event : EventRef) : RequestLifecycle :=
  if now ≤ a.decisionDeadline then
    match d with
    | accept => .accepted .standing a event
    | reject | block => .rejected a event
  else .expired a event

section
variable {m m' : ManifestBuilder} {id : RequestId} {r : RelationshipRequest} {a : RequestSubmission}

omit [Crypto]

end

section
variable {e : EngineState} {h : RequestHistory} {lane : Option SenderScopedLane}
  {context : TransitionContext} {r : RelationshipRequest} {a : RequestSubmission}

end

/-! ### Every run -/

/-- What stays of a request: its terms, its submission facts, and, once it is finished,
all of it. -/
structure RelationshipRequest.Continues (r r' : RelationshipRequest) : Prop where
  terms : r'.terms = r.terms
  submission : ∀ a, r.lifecycle.submission = some a → r'.lifecycle.submission = some a
  final : r.lifecycle.isTerminal = true → r' = r

/-- Every stored request stays stored and continues. -/
def StoreState.Continues (w w' : StoreState) : Prop :=
  ∀ R e, w.relationships.get? R = some e → ∃ e', w'.relationships.get? R = some e' ∧
    ∀ id r, e.protocol.requests.get? id = some r →
      ∃ r', e'.protocol.requests.get? id = some r' ∧ r.Continues r'

namespace RelationshipRequest.Continues
variable {r r' r'' : RelationshipRequest}

omit [Crypto] in
theorem refl (r : RelationshipRequest) : r.Continues r := ⟨rfl, fun _ ha => ha, fun _ => rfl⟩

omit [Crypto] in
theorem trans (h : r.Continues r') (h' : r'.Continues r'') : r.Continues r'' where
  terms := h'.terms.trans h.terms
  submission := fun a ha => h'.submission a (h.submission a ha)
  final := fun hfinal => by
    have heq := h.final hfinal
    exact (h'.final (heq ▸ hfinal)).trans heq

end RelationshipRequest.Continues

end CsMail
