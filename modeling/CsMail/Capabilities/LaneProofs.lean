import CsMail.Capabilities.Lane
import CsMail.Library.InPlace

/-! The methods of a lane.

The source's methods change the lane in place, after their last check. They compute the
functions of `Lane` (`computes_consume` and the like), so a refused method leaves the lane
as it was. `Sound` is what every method keeps. -/
namespace CsMail
open Library

namespace SenderScopedLane

/-! ### In place -/

namespace Method

def consume (message : MessageId) (capability : Option LaneId) (declarations : MessageDeclarations)
    (evidence : LaneEvidence) (now : CanonicalTime) : InPlace SenderScopedLane CapabilityError Bool := do
  let l ← get
  l.authorizes l.grant.sender l.grant.recipient capability declarations evidence now
  if l.admittedMessages.contains message then return true
  else do
    let rateWindowEnd ← okOr (l.rateWindowStartedAt.checkedAdd l.grant.rateLimit.interval)
      CapabilityError.arithmeticOverflow
    refuseIf (message.val = 0 ∨ now < l.lastActivity) CapabilityError.notAuthorized
    let (started, count) ←
      if rateWindowEnd ≤ now then do
        let _ ← okOr (now.checkedAdd l.grant.rateLimit.interval) CapabilityError.arithmeticOverflow
        pure (now, (0 : U32))
      else pure (l.rateWindowStartedAt, l.messagesInRateWindow)
    refuseIf (l.grant.rateLimit.maxMessages ≤ count) CapabilityError.rateLimitExceeded
    let count ← okOr (Checked.succ count) CapabilityError.arithmeticOverflow
    let horizon ← okOr (now.checkedAdd l.grant.lifetime) CapabilityError.arithmeticOverflow
    let version ← okOr l.version.checkedNext CapabilityError.arithmeticOverflow
    modify fun l => {l with rateWindowStartedAt := started}
    modify fun l => {l with messagesInRateWindow := count}
    modify fun l => {l with lastActivity := now}
    modify fun l => {l with horizonAt := min horizon l.grant.notAfter}
    modify fun l => {l with version}
    modify fun l => {l with admittedMessages := l.admittedMessages.insert message ()}
    return false

def reachHorizon (now : CanonicalTime) : InPlace SenderScopedLane CapabilityError LaneHorizonEffect := do
  let l ← get
  if now < l.horizonAt ∨ l.state ≠ .active then return .none
  else do
    let version ← okOr l.version.checkedNext CapabilityError.arithmeticOverflow
    let horizon ← l.nextHorizon now
    modify fun l => {l with version}
    if l.grant.notAfter ≤ now then do
      modify fun l => {l with state := .expired}
      return .reconfirmationRequired
    else match l.grant.mode with
      | .expiring => do
        modify fun l => {l with state := .awaitingReconfirmation}
        return .reconfirmationRequired
      | .persistent => do
        modify fun l => {l with horizonAt := horizon}
        return .reviewReminder

def reconfirm (now : CanonicalTime) : InPlace SenderScopedLane CapabilityError Unit := do
  let l ← get
  refuseIf (l.state ≠ .awaitingReconfirmation ∨ l.grant.notAfter ≤ now ∨ now < l.horizonAt)
    CapabilityError.notAuthorized
  let horizon ← okOr (now.checkedAdd l.grant.lifetime) CapabilityError.arithmeticOverflow
  let version ← okOr l.version.checkedNext CapabilityError.arithmeticOverflow
  modify fun l => {l with state := .active}
  modify fun l => {l with lastActivity := now}
  modify fun l => {l with horizonAt := min horizon l.grant.notAfter}
  modify fun l => {l with version}

def revoke : InPlace SenderScopedLane CapabilityError Unit := do
  let l ← get
  if l.state = .revoked then return ()
  else do
    let version ← okOr l.version.checkedNext CapabilityError.arithmeticOverflow
    modify fun l => {l with state := .revoked}
    modify fun l => {l with version}

end Method

section
variable {l l' : SenderScopedLane} {now : CanonicalTime} {message : MessageId}
  {capability : Option LaneId} {declarations : MessageDeclarations} {evidence : LaneEvidence}

theorem computes_consume : (Method.consume message capability declarations evidence now).Computes
    fun l => l.consume message capability declarations evidence now := by
  intro l
  refine InPlace.on_get.trans (InPlace.on_check fun _ _ => InPlace.on_ite (fun _ => rfl) fun _ => ?_)
  refine InPlace.on_check fun _ _ => InPlace.on_check fun _ _ => InPlace.on_ite (fun _ => ?_) fun _ => ?_
  · refine InPlace.on_check fun _ _ => InPlace.on_check fun _ _ => InPlace.on_check fun _ _ => ?_
    exact InPlace.on_check fun _ _ => InPlace.on_check fun _ _ => InPlace.on_check fun _ _ => rfl
  · refine InPlace.on_check fun _ _ => InPlace.on_check fun _ _ => InPlace.on_check fun _ _ => ?_
    exact InPlace.on_check fun _ _ => InPlace.on_check fun _ _ => rfl

theorem computes_reachHorizon : (Method.reachHorizon now).Computes fun l => l.reachHorizon now := by
  intro l
  refine InPlace.on_get.trans (InPlace.on_ite (fun _ => rfl) fun _ => ?_)
  refine InPlace.on_check fun _ _ => InPlace.on_check fun _ _ => ?_
  by_cases hover : l.grant.notAfter ≤ now
  · rw [if_pos hover, if_pos hover]
    rfl
  · rw [if_neg hover, if_neg hover]
    cases l.grant.mode <;> rfl

theorem computes_reconfirm :
    (Method.reconfirm now).Computes fun l => (l.reconfirm now).map fun l' => (l', ()) := by
  intro l
  have hmap : ∀ {α β γ : Type} {x : Except CapabilityError α} {f : α → Except CapabilityError β}
      {g : β → γ}, (x >>= f).map g = x >>= fun a => (f a).map g := fun {α β γ x f g} => by
    cases x <;> rfl
  refine InPlace.on_get.trans ?_
  simp only [SenderScopedLane.reconfirm, hmap]
  exact InPlace.on_check fun _ _ => InPlace.on_check fun _ _ => InPlace.on_check fun _ _ => rfl

theorem computes_revoke : Method.revoke.Computes fun l => l.revoke.map fun l' => (l', ()) := by
  intro l
  refine InPlace.on_get.trans ?_
  unfold SenderScopedLane.revoke
  by_cases hrevoked : l.state = .revoked
  · simp only [if_pos hrevoked]
    rfl
  · simp only [if_neg hrevoked]
    cases l.version.checkedNext <;> rfl

/-! ### What each method changes -/

/-- The lane lets its sender write. -/
structure Open (l : SenderScopedLane) (now : CanonicalTime) : Prop where
  active : l.state = .active
  started : l.grant.notBefore ≤ now
  unended : now < l.grant.notAfter
  alive : l.grant.mode = .expiring → now < l.horizonAt

theorem authorizes_eq_ok {sender recipient : ProtocolIdentity}
    (h : l.authorizes sender recipient capability declarations evidence now = .ok ⟨⟩) : l.Open now := by
  simp only [authorizes, bind_eq_ok, mapError_eq_ok, refuseIf_eq_ok, exists_const, not_or, not_and,
    not_le, not_lt, ne_eq, Decidable.not_not] at h
  obtain ⟨-, -, -, hactive, -, -, hstarted, hended, halive, -⟩ := h
  exact ⟨hactive, hstarted, hended, halive⟩

/-- The rate window an admission falls in: the current one, or one that it opens. -/
inductive Falls (l : SenderScopedLane) (now : CanonicalTime) : SenderScopedLane → Prop
  | current {l' : SenderScopedLane} : l'.rateWindowStartedAt = l.rateWindowStartedAt →
      now.millis < l.rateWindowStartedAt.millis + l.grant.rateLimit.interval.val.val →
      l'.messagesInRateWindow.val = l.messagesInRateWindow.val + 1 → Falls l now l'
  | opened {l' : SenderScopedLane} {windowEnd : CanonicalTime} : l'.rateWindowStartedAt = now →
      now.checkedAdd l.grant.rateLimit.interval = some windowEnd →
      l.rateWindowStartedAt.millis + l.grant.rateLimit.interval.val.val ≤ now.millis →
      l'.messagesInRateWindow.val = 1 → Falls l now l'

/-- What an admission changes. -/
structure Admits (l : SenderScopedLane) (message : MessageId) (now : CanonicalTime)
    (l' : SenderScopedLane) : Prop where
  opened : l.Open now
  fresh : l.admittedMessages.get? message = none
  identified : message.val ≠ 0
  present : l.lastActivity ≤ now
  falls : l.Falls now l'
  allowed : l'.messagesInRateWindow ≤ l.grant.rateLimit.maxMessages
  horizon : ∃ horizon, now.checkedAdd l.grant.lifetime = some horizon ∧
    l'.horizonAt = min horizon l.grant.notAfter
  version : l'.version.val.val = l.version.val.val + 1
  lastActivity : l'.lastActivity = now
  messages : l'.admittedMessages = l.admittedMessages.insert message ()
  authority : l'.authority = l.authority
  grant : l'.grant = l.grant
  state : l'.state = .active

theorem consume_eq_ok {repeated : Bool}
    (h : l.consume message capability declarations evidence now = .ok (l', repeated)) :
    (repeated = true ∧ l' = l ∧ l.Open now ∧ l.admittedMessages.contains message = true) ∨
      (repeated = false ∧ l.Admits message now l') := by
  obtain ⟨⟨⟩, hauthorized, h⟩ := bind_eq_ok.mp h
  have hopen := authorizes_eq_ok hauthorized
  split_ifs at h with hseen
  · cases h
    exact .inl ⟨rfl, rfl, hopen, hseen⟩
  refine .inr ?_
  simp only [bind_eq_ok, okOr_eq_ok, refuseIf_eq_ok, exists_const, not_or, not_lt] at h
  obtain ⟨windowEnd, hwindow, ⟨hidentified, hpresent⟩, h⟩ := h
  have hmillis := CanonicalTime.checkedAdd_eq_some.mp hwindow
  have hfresh := SortedMap.contains_eq_false.mp (Bool.not_eq_true _ ▸ hseen)
  split_ifs at h with hrolled
  · simp only [bind_eq_ok, okOr_eq_ok, refuseIf_eq_ok, exists_const, Except.ok.injEq, Prod.mk.injEq,
      not_le] at h
    obtain ⟨next, hnext, _, rfl, hallowed, count, hcount, horizon, hhorizon, version, hversion, rfl, rfl⟩ := h
    have hone := Checked.succ_eq_some.mp hcount
    rw [CanonicalTime.le_iff_millis, hmillis] at hrolled
    refine ⟨rfl, hopen, hfresh, hidentified, hpresent, .opened rfl hnext hrolled hone, ?_,
      ⟨horizon, hhorizon, rfl⟩, Counter.checkedNext_eq_some.mp hversion, rfl, rfl, rfl, rfl, hopen.active⟩
    rw [Fin.le_def, hone]
    exact hallowed
  · simp only [bind_eq_ok, okOr_eq_ok, refuseIf_eq_ok, exists_const, Except.ok.injEq, Prod.mk.injEq,
      not_le] at h
    obtain ⟨_, rfl, hallowed, count, hcount, horizon, hhorizon, version, hversion, rfl, rfl⟩ := h
    have hone := Checked.succ_eq_some.mp hcount
    rw [not_le, CanonicalTime.lt_iff_millis, hmillis] at hrolled
    refine ⟨rfl, hopen, hfresh, hidentified, hpresent, .current rfl hrolled hone, ?_,
      ⟨horizon, hhorizon, rfl⟩, Counter.checkedNext_eq_some.mp hversion, rfl, rfl, rfl, rfl, hopen.active⟩
    rw [Fin.le_def, hone]
    exact hallowed

/-- A message that was not counted before is admitted. -/
theorem consume_new {repeated : Bool}
    (h : l.consume message capability declarations evidence now = .ok (l', repeated)) (hnew : ¬repeated = true) :
    l.Admits message now l' := by
  rcases consume_eq_ok h with ⟨hrepeated, -⟩ | ⟨-, hadmits⟩
  · exact absurd hrepeated hnew
  · exact hadmits

/-- What a horizon changes. -/
inductive Reaches (l : SenderScopedLane) (now : CanonicalTime) : LaneHorizonEffect → SenderScopedLane → Prop
  | nothing : Reaches l now .none l
  | ended {version : Version} : l.state = .active → l.grant.notAfter ≤ now →
      version.val.val = l.version.val.val + 1 →
      Reaches l now .reconfirmationRequired {l with version, state := .expired}
  | awaited {version : Version} : l.state = .active → l.grant.mode = .expiring →
      version.val.val = l.version.val.val + 1 →
      Reaches l now .reconfirmationRequired {l with version, state := .awaitingReconfirmation}
  | reminded {version : Version} {horizon : CanonicalTime} : l.state = .active →
      l.grant.mode = .persistent → l.horizonAt ≤ now → now < l.grant.notAfter →
      now.checkedAdd l.grant.lifetime = some horizon → version.val.val = l.version.val.val + 1 →
      Reaches l now .reviewReminder {l with version, horizonAt := min horizon l.grant.notAfter}

theorem reachHorizon_eq_ok {effect : LaneHorizonEffect} (h : l.reachHorizon now = .ok (l', effect)) :
    l.Reaches now effect l' := by
  unfold reachHorizon at h
  by_cases hnone : now < l.horizonAt ∨ l.state ≠ .active
  · rw [if_pos hnone] at h
    cases h
    exact .nothing
  rw [if_neg hnone] at h
  obtain ⟨hreached, hactive⟩ := not_or.mp hnone
  have hactive : l.state = .active := not_not.mp hactive
  obtain ⟨version, hversion, h⟩ := bind_eq_ok.mp h
  have hnext := Counter.checkedNext_eq_some.mp (okOr_eq_ok.mp hversion)
  obtain ⟨horizon, hhorizon, h⟩ := bind_eq_ok.mp h
  split_ifs at h with hover
  · cases h
    exact .ended hactive hover hnext
  have hunended := not_le.mp hover
  unfold nextHorizon at hhorizon
  cases hmode : l.grant.mode with
  | expiring =>
    rw [hmode] at h
    cases h
    exact .awaited hactive hmode hnext
  | persistent =>
    rw [hmode] at h
    cases h
    rw [if_pos ⟨hmode, hunended⟩] at hhorizon
    obtain ⟨t, ht, hhorizon⟩ := bind_eq_ok.mp hhorizon
    cases hhorizon
    exact .reminded hactive hmode (not_lt.mp hreached) hunended (okOr_eq_ok.mp ht) hnext

/-- What a reconfirmation changes. -/
structure Reconfirms (l : SenderScopedLane) (now : CanonicalTime) (l' : SenderScopedLane) : Prop where
  awaiting : l.state = .awaitingReconfirmation
  unended : now < l.grant.notAfter
  reached : l.horizonAt ≤ now
  changed : ∃ horizon version, now.checkedAdd l.grant.lifetime = some horizon ∧
    version.val.val = l.version.val.val + 1 ∧
    l' = {l with state := .active, lastActivity := now, horizonAt := min horizon l.grant.notAfter, version}

theorem reconfirm_eq_ok (h : l.reconfirm now = .ok l') : l.Reconfirms now l' := by
  simp only [reconfirm, bind_eq_ok, okOr_eq_ok, refuseIf_eq_ok, exists_const, not_or, not_le, not_lt,
    ne_eq, Decidable.not_not, Except.ok.injEq] at h
  obtain ⟨⟨hawaiting, hunended, hreached⟩, horizon, hhorizon, version, hversion, rfl⟩ := h
  exact ⟨hawaiting, hunended, hreached, horizon, version, hhorizon,
    Counter.checkedNext_eq_some.mp hversion, rfl⟩

theorem revoke_eq_ok (h : l.revoke = .ok l') : l'.state = .revoked ∧ (l' = l ∨
    ∃ version : Version, version.val.val = l.version.val.val + 1 ∧
      l' = {l with state := .revoked, version}) := by
  unfold revoke at h
  split_ifs at h with hrevoked
  · cases h
    exact ⟨hrevoked, .inl rfl⟩
  · obtain ⟨version, hversion, h⟩ := bind_eq_ok.mp h
    cases h
    exact ⟨rfl, .inr ⟨version, Counter.checkedNext_eq_some.mp (okOr_eq_ok.mp hversion), rfl⟩⟩

end

/-! ### What every lane keeps -/


/-- What every method keeps of a lane. -/
structure Sound (l : SenderScopedLane) : Prop where
  grant : l.grant.validate = .ok ⟨⟩
  authority : l.authority.unidentified = false
  since : l.grant.issuedAt ≤ l.lastActivity
  before : l.lastActivity < l.grant.notAfter
  opened : l.grant.issuedAt ≤ l.rateWindowStartedAt
  current : l.rateWindowStartedAt ≤ l.lastActivity
  closes : ∃ t, l.rateWindowStartedAt.checkedAdd l.grant.rateLimit.interval = some t
  lives : ∃ t, l.lastActivity.checkedAdd l.grant.lifetime = some t ∧
    min t l.grant.notAfter ≤ l.horizonAt ∧
    (l.grant.mode = .expiring → l.horizonAt = min t l.grant.notAfter)
  fixed : l.horizonAt ≤ l.grant.notAfter
  awaiting : l.state = .awaitingReconfirmation → l.grant.mode = .expiring
  changed : l.state ≠ .active → l.version.val.val ≠ 0
  allowed : l.messagesInRateWindow ≤ l.grant.rateLimit.maxMessages
  counted : l.messagesInRateWindow.val ≤ l.admittedMessages.entries.length
  used : 0 < l.admittedMessages.entries.length → l.messagesInRateWindow.val ≠ 0
  versioned : l.admittedMessages.entries.length ≤ l.version.val.val
  identified : ∀ m u, l.admittedMessages.get? m = some u → m.val ≠ 0

section
variable {l l' : SenderScopedLane} {now : CanonicalTime} {message : MessageId}

theorem Sound.admits (h : l.Sound) (ha : l.Admits message now l') : l'.Sound := by
  have hlength : l'.admittedMessages.entries.length = l.admittedMessages.entries.length + 1 := by
    rw [ha.messages, SortedMap.length_insert_new _ ha.fresh]
  have hactive := ha.state
  have hcounted := h.counted
  have hversioned := h.versioned
  have hversion := ha.version
  obtain ⟨horizon, hhorizon, hset⟩ := ha.horizon
  refine ⟨?_, ?_, ?_, ?_, ?_, ?_, ?_, ⟨horizon, ?_, ?_, ?_⟩, ?_, ?_, ?_, ?_, ?_, ?_, ?_, ?_⟩
  · rw [ha.grant]
    exact h.grant
  · rw [ha.authority]
    exact h.authority
  · rw [ha.grant, ha.lastActivity]
    exact h.since.trans ha.present
  · rw [ha.grant, ha.lastActivity]
    exact ha.opened.unended
  · rw [ha.grant]
    cases ha.falls with
    | current hsame => exact hsame ▸ h.opened
    | opened hnow => exact hnow ▸ h.since.trans ha.present
  · rw [ha.lastActivity]
    cases ha.falls with
    | current hsame => exact hsame ▸ h.current.trans ha.present
    | opened hnow => exact hnow.le
  · rw [ha.grant]
    cases ha.falls with
    | current hsame => exact hsame ▸ h.closes
    | opened hnow hend => exact hnow ▸ ⟨_, hend⟩
  · rw [ha.lastActivity, ha.grant]
    exact hhorizon
  · rw [ha.grant, hset]
  · rw [ha.grant, hset]
    exact fun _ => rfl
  · rw [ha.grant, hset]
    exact min_le_right _ _
  · rw [hactive]
    exact fun h => by cases h
  · exact fun hne => absurd hactive hne
  · rw [ha.grant]
    exact ha.allowed
  · cases ha.falls <;> omega
  · cases ha.falls <;> omega
  · omega
  · intro m u hm
    rw [ha.messages, SortedMap.get?_insert] at hm
    split_ifs at hm with heq
    · exact heq ▸ ha.identified
    · exact h.identified m u hm

theorem Sound.reaches {effect : LaneHorizonEffect} (h : l.Sound) (hr : l.Reaches now effect l') :
    l'.Sound := by
  have hversioned := h.versioned
  cases hr with
  | nothing => exact h
  | ended hactive hover hversion =>
    exact {h with awaiting := nofun, changed := fun _ => by simp [hversion], versioned := by simp; omega}
  | awaited hactive hmode hversion =>
    exact {h with
      awaiting := fun _ => hmode, changed := fun _ => by simp [hversion], versioned := by simp; omega}
  | @reminded version horizon hactive hmode hreached hunended hhorizon hversion =>
    obtain ⟨t, ht, hle, -⟩ := h.lives
    refine {h with
      lives := ⟨t, ht, ?_, fun hexpiring => ?_⟩
      fixed := min_le_right _ _
      changed := fun hne => absurd hactive hne
      versioned := by simp; omega}
    · refine le_min ((hle.trans hreached).trans ?_) (min_le_right _ _)
      rw [CanonicalTime.le_iff_millis, CanonicalTime.checkedAdd_eq_some.mp hhorizon]
      exact Nat.le_add_right _ _
    · rw [hmode] at hexpiring
      cases hexpiring

theorem Sound.reconfirms (h : l.Sound) (hr : l.Reconfirms now l') : l'.Sound := by
  obtain ⟨horizon, version, hhorizon, hversion, rfl⟩ := hr.changed
  have hversioned := h.versioned
  -- an awaiting lane expires with its activity, which cannot lie beyond the horizon
  have hlast : l.lastActivity ≤ now := by
    obtain ⟨t, ht, hle, -⟩ := h.lives
    refine (le_min ?_ h.before.le).trans (hle.trans hr.reached)
    rw [CanonicalTime.le_iff_millis, CanonicalTime.checkedAdd_eq_some.mp ht]
    exact Nat.le_add_right _ _
  exact {h with
    since := h.since.trans hlast
    before := hr.unended
    current := h.current.trans hlast
    lives := ⟨horizon, hhorizon, le_rfl, fun _ => rfl⟩
    fixed := min_le_right _ _
    awaiting := nofun
    changed := fun hne => absurd rfl hne
    versioned := by simp; omega}

theorem Sound.revoked (h : l.Sound) (hr : l.revoke = .ok l') : l'.Sound := by
  have hversioned := h.versioned
  obtain ⟨-, rfl | ⟨version, hversion, rfl⟩⟩ := revoke_eq_ok hr
  · exact h
  · exact {h with awaiting := nofun, changed := fun _ => by simp [hversion], versioned := by simp; omega}

end

/-! ### New lanes -/

theorem starts_of_validate {g : SenderScopedGrant} (h : g.validate = .ok ⟨⟩) :
    g.issuedAt ≤ g.notBefore ∧ g.notBefore < g.notAfter ∧ 0 < g.rateLimit.interval.val.val := by
  obtain ⟨⟨⟩, -, hchecked⟩ := bind_eq_ok.mp h
  have hchecked := refuseIf_eq_ok.mp hchecked
  simp only [not_or, not_lt, not_le, Bool.not_eq_false, RateLimit.valid, Bool.and_eq_true,
    decide_eq_true_eq] at hchecked
  obtain ⟨-, -, -, -, -, -, -, -, ⟨-, hinterval⟩, hissued, hended, -⟩ := hchecked
  exact ⟨hissued, hended, hinterval⟩

/-- A lane no message has passed. -/
structure New (l : SenderScopedLane) : Prop where
  sound : l.Sound
  lastActivity : l.lastActivity = l.grant.issuedAt
  rateWindowStartedAt : l.rateWindowStartedAt = l.grant.issuedAt
  messagesInRateWindow : l.messagesInRateWindow = 0
  admittedMessages : l.admittedMessages = ∅
  state : l.state = .active

theorem fromGrant_eq_ok {g : SenderScopedGrant} {l : SenderScopedLane} (h : fromGrant g = .ok l) :
    l.New := by
  simp only [fromGrant, bind_eq_ok, okOr_eq_ok, Except.ok.injEq] at h
  obtain ⟨⟨⟩, hvalid, horizon, hhorizon, closes, hcloses, rfl⟩ := h
  obtain ⟨hissued, hended, -⟩ := starts_of_validate hvalid
  exact ⟨{
    grant := hvalid
    authority := rfl
    since := le_rfl
    before := hissued.trans_lt hended
    opened := le_rfl
    current := le_rfl
    closes := ⟨closes, hcloses⟩
    lives := ⟨horizon, hhorizon, le_rfl, fun _ => rfl⟩
    fixed := min_le_right _ _
    awaiting := fun h => by cases h
    changed := fun hne => absurd rfl hne
    allowed := Fin.zero_le _
    counted := Nat.zero_le _
    used := fun h => absurd h (Nat.lt_irrefl 0)
    versioned := Nat.zero_le _
    identified := by simp}, rfl, rfl, rfl, rfl, rfl⟩

theorem acceptedLane_eq_ok [Crypto] {t : ReplyLaneTerms} {a : ReplyAcceptance} {l : SenderScopedLane}
    (h : t.acceptedLane a = .ok l) : l.New := by
  simp only [ReplyLaneTerms.acceptedLane, bind_eq_ok, refuseIf_eq_ok, okOr_eq_ok, exists_const,
    not_or, Except.ok.injEq] at h
  obtain ⟨⟨hrequest, -, hcreation, hacceptance⟩, notAfter, -, lane, hlane, rfl⟩ := h
  have hnew := fromGrant_eq_ok hlane
  exact ⟨{hnew.sound with authority := by simp [LaneAuthority.unidentified, hrequest, hcreation, hacceptance]},
    hnew.lastActivity, hnew.rateWindowStartedAt, hnew.messagesInRateWindow, hnew.admittedMessages, hnew.state⟩

/-- A lane that was granted by its recipient, or derived from an acceptance. -/
inductive Created [Crypto] : SenderScopedLane → Prop
  | granted {g : SenderScopedGrant} {l : SenderScopedLane} : fromGrant g = .ok l → Created l
  | accepted {t : ReplyLaneTerms} {a : ReplyAcceptance} {l : SenderScopedLane} :
      t.acceptedLane a = .ok l → Created l

theorem Created.new [Crypto] {l : SenderScopedLane} (h : Created l) : l.New := by
  cases h with
  | granted h => exact fromGrant_eq_ok h
  | accepted h => exact acceptedLane_eq_ok h

end SenderScopedLane
end CsMail
