import CsMail.Capabilities.LaneProofs
import CsMail.Library.Machine

/-! Whole runs of one lane: messages, horizons, reconfirmations and revocations, in any
order and at any times.

A log keeps what was accepted, the newest first. What a lane owes its terms is read off the
log alone (`Bounded`): the lane's own fields only say the same (`Tells`). -/
namespace CsMail
open Library

inductive LaneCall
  | consume (message : MessageId) (capability : Option LaneId) (declarations : MessageDeclarations)
      (evidence : LaneEvidence)
  | reachHorizon
  | reconfirm
  | revoke

/-- What an accepted call did. -/
inductive LaneEvent
  | admitted (message : MessageId)
  | repeated (message : MessageId)
  | horizon (effect : LaneHorizonEffect)
  | reconfirmed
  | revoked
  deriving DecidableEq

/-- A lane, and what it accepted, the newest first. -/
structure LaneLog where
  lane : SenderScopedLane
  events : List (CanonicalTime × LaneEvent) := []

namespace LaneCall

/-- The lane's method, run in place. -/
def method (c : LaneCall) (now : CanonicalTime) : InPlace SenderScopedLane CapabilityError LaneEvent :=
  match c with
  | consume message capability declarations evidence =>
    (fun repeated => if repeated then .repeated message else .admitted message) <$>
      SenderScopedLane.Method.consume message capability declarations evidence now
  | reachHorizon => LaneEvent.horizon <$> SenderScopedLane.Method.reachHorizon now
  | reconfirm => (fun _ => .reconfirmed) <$> SenderScopedLane.Method.reconfirm now
  | revoke => (fun _ => .revoked) <$> SenderScopedLane.Method.revoke

/-- What the method computes. -/
def apply (c : LaneCall) (now : CanonicalTime) (l : SenderScopedLane) :
    Except CapabilityError (SenderScopedLane × LaneEvent) :=
  match c with
  | consume message capability declarations evidence =>
    (l.consume message capability declarations evidence now).map fun r =>
      (r.1, if r.2 then .repeated message else .admitted message)
  | reachHorizon => (l.reachHorizon now).map fun r => (r.1, .horizon r.2)
  | reconfirm => (l.reconfirm now).map fun l' => (l', .reconfirmed)
  | revoke => l.revoke.map fun l' => (l', .revoked)

theorem computes_method (c : LaneCall) (now : CanonicalTime) : (c.method now).Computes (c.apply now) := by
  have hmap : ∀ {α β γ : Type} (x : Except CapabilityError α) (f : α → β) (g : β → γ),
      (x.map f).map g = x.map fun a => g (f a) := fun x f g => by
    cases x <;> rfl
  cases c with
  | consume message capability declarations evidence => exact SenderScopedLane.computes_consume.map _
  | reachHorizon => exact SenderScopedLane.computes_reachHorizon.map _
  | reconfirm =>
    intro l
    refine (SenderScopedLane.computes_reconfirm.map (fun _ => LaneEvent.reconfirmed) l).trans ?_
    exact congrArg _ (hmap ..)
  | revoke =>
    intro l
    refine (SenderScopedLane.computes_revoke.map (fun _ => LaneEvent.revoked) l).trans ?_
    exact congrArg _ (hmap ..)

end LaneCall

namespace LaneLog

/-- The call is made; what it leaves of the lane is kept, also if it is refused. -/
def after (b : LaneLog) (c : LaneCall × CanonicalTime) : LaneLog :=
  match (c.1.method c.2).on b.lane with
  | (.ok event, lane) => ⟨lane, (c.2, event) :: b.events⟩
  | (.error _, lane) => ⟨lane, b.events⟩

def calls (b : LaneLog) (cs : List (LaneCall × CanonicalTime)) : LaneLog := cs.foldl after b

def call (b : LaneLog) (c : LaneCall × CanonicalTime) : Except CapabilityError LaneLog :=
  (c.1.apply c.2 b.lane).map fun r => ⟨r.1, (c.2, r.2) :: b.events⟩

/-- A refused method leaves the log as it was. -/
theorem after_eq (b : LaneLog) (c : LaneCall × CanonicalTime) : b.after c = Machine.advance call b c := by
  unfold after Machine.advance call
  rw [c.1.computes_method c.2 b.lane]
  cases c.1.apply c.2 b.lane <;> rfl

theorem calls_eq (b : LaneLog) (cs : List (LaneCall × CanonicalTime)) :
    b.calls cs = Machine.run call b cs := by
  have hafter : after = Machine.advance call := funext fun b => funext fun c => after_eq b c
  rw [calls, hafter]
  rfl

end LaneLog

/-! ### What a log says -/

namespace LaneLog

/-- The last activity or reconfirmation. -/
def lastActive (g : SenderScopedGrant) : List (CanonicalTime × LaneEvent) → CanonicalTime
  | [] => g.issuedAt
  | (time, .admitted _) :: _ | (time, .reconfirmed) :: _ => time
  | _ :: older => lastActive g older

/-- The start of the rate window: an admission after its end opens another. -/
def windowStart (g : SenderScopedGrant) : List (CanonicalTime × LaneEvent) → CanonicalTime
  | [] => g.issuedAt
  | (time, .admitted _) :: older =>
    if (windowStart g older).millis + g.rateLimit.interval.val.val ≤ time.millis then time
    else windowStart g older
  | _ :: older => windowStart g older

/-- The messages admitted in the rate window from an instant on. -/
def admittedIn (g : SenderScopedGrant) (start : CanonicalTime) :
    List (CanonicalTime × LaneEvent) → List MessageId
  | [] => []
  | (time, .admitted message) :: older =>
    if start ≤ time ∧ time.millis < start.millis + g.rateLimit.interval.val.val then
      message :: admittedIn g start older
    else admittedIn g start older
  | _ :: older => admittedIn g start older

/-- All messages admitted. -/
def messages : List (CanonicalTime × LaneEvent) → List MessageId
  | [] => []
  | (_, .admitted message) :: older => message :: messages older
  | _ :: older => messages older

/-- A message came within the lane's terms. -/
structure Inside (g : SenderScopedGrant) (time : CanonicalTime)
    (older : List (CanonicalTime × LaneEvent)) : Prop where
  started : g.notBefore ≤ time
  unended : time < g.notAfter
  unrevoked : ∀ t, (t, .revoked) ∉ older
  alive : g.mode = .expiring → time.millis < (lastActive g older).millis + g.lifetime.val.val

/-- The log keeps to the terms of the grant. -/
structure Bounded (g : SenderScopedGrant) (events : List (CanonicalTime × LaneEvent)) : Prop where
  admitted : ∀ time message older, (time, .admitted message) :: older <:+ events → Inside g time older
  repeated : ∀ time message older, (time, .repeated message) :: older <:+ events → Inside g time older
  /-- Every rate window the log has opened stays within the allowance. -/
  allowance : ∀ older, older <:+ events →
    (admittedIn g (windowStart g older) events).length ≤ g.rateLimit.maxMessages.val
  distinct : (messages events).Nodup

/-- The lane says what the log says. -/
structure Tells (g : SenderScopedGrant) (b : LaneLog) : Prop where
  sound : b.lane.Sound
  grant : b.lane.grant = g
  lastActivity : b.lane.lastActivity = lastActive g b.events
  window : b.lane.rateWindowStartedAt = windowStart g b.events
  count : b.lane.messagesInRateWindow.val = (admittedIn g (windowStart g b.events) b.events).length
  messages : ∀ m, b.lane.admittedMessages.contains m = true ↔ m ∈ messages b.events
  revoked : ∀ t, (t, .revoked) ∈ b.events → b.lane.state = .revoked

/-- Windows follow one another, and nothing is admitted beyond the last. -/
structure Windowed (g : SenderScopedGrant) (events : List (CanonicalTime × LaneEvent)) : Prop where
  closed : ∀ older, older <:+ events → windowStart g older = windowStart g events ∨
    (windowStart g older).millis + g.rateLimit.interval.val.val ≤ (windowStart g events).millis
  last : ∀ t m, (t, .admitted m) ∈ events →
    t.millis < (windowStart g events).millis + g.rateLimit.interval.val.val

structure Kept (g : SenderScopedGrant) (b : LaneLog) : Prop where
  tells : b.Tells g
  bounded : Bounded g b.events
  windowed : Windowed g b.events

section
variable {g : SenderScopedGrant} {b : LaneLog} {l : SenderScopedLane} {now : CanonicalTime}
  {message : MessageId} {events : List (CanonicalTime × LaneEvent)}

theorem Tells.alive (h : b.Tells g) (hopen : b.lane.Open now) : Inside g now b.events := by
  have hgrant := h.grant
  refine ⟨hgrant ▸ hopen.started, hgrant ▸ hopen.unended, fun t ht => ?_, fun hmode => ?_⟩
  · have hrevoked := h.revoked t ht
    rw [hopen.active] at hrevoked
    cases hrevoked
  · obtain ⟨t, ht, -, hexact⟩ := h.sound.lives
    have hhorizon := hopen.alive (hgrant ▸ hmode)
    rw [hexact (hgrant ▸ hmode)] at hhorizon
    have hlast := lt_of_lt_of_le hhorizon (min_le_left _ _)
    rwa [CanonicalTime.lt_iff_millis, CanonicalTime.checkedAdd_eq_some.mp ht, h.lastActivity, hgrant] at hlast

/-! ### Events that admit nothing -/

/-- An event that admits nothing opens no window and uses no allowance. -/
structure Silent (g : SenderScopedGrant) (event : CanonicalTime × LaneEvent) : Prop where
  windowStart : ∀ events, windowStart g (event :: events) = LaneLog.windowStart g events
  admittedIn : ∀ start events, admittedIn g start (event :: events) = LaneLog.admittedIn g start events
  messages : ∀ events, messages (event :: events) = LaneLog.messages events
  unadmitted : ∀ t m, (t, .admitted m) ≠ event

theorem silent_of_ne {event : CanonicalTime × LaneEvent} (h : ∀ m, event.2 ≠ .admitted m) :
    Silent g event := by
  obtain ⟨time, event⟩ := event
  cases event with
  | admitted m => exact absurd rfl (h m)
  | repeated m | horizon effect | reconfirmed | revoked =>
    exact ⟨fun _ => rfl, fun _ _ => rfl, fun _ => rfl, fun _ _ heq => by cases heq⟩

theorem Windowed.silent {event : CanonicalTime × LaneEvent} (he : Silent g event)
    (h : Windowed g events) : Windowed g (event :: events) where
  closed older holder := by
    rw [he.windowStart]
    rcases List.suffix_cons_iff.mp holder with rfl | holder
    · exact .inl (he.windowStart events)
    · exact h.closed older holder
  last t m hm := by
    rw [he.windowStart]
    rcases List.mem_cons.mp hm with heq | hm
    · exact absurd heq (he.unadmitted t m)
    · exact h.last t m hm

theorem Bounded.silent {event : CanonicalTime × LaneEvent} (he : Silent g event) (h : Bounded g events)
    (hrepeated : ∀ m, event.2 = .repeated m → Inside g event.1 events) : Bounded g (event :: events) where
  admitted time m older holder := by
    rcases List.suffix_cons_iff.mp holder with heq | holder
    · exact absurd (List.cons.inj heq).1 (he.unadmitted time m)
    · exact h.admitted time m older holder
  repeated time m older holder := by
    rcases List.suffix_cons_iff.mp holder with heq | holder
    · obtain ⟨rfl, rfl⟩ := List.cons.inj heq
      exact hrepeated m rfl
    · exact h.repeated time m older holder
  allowance older holder := by
    rw [he.admittedIn]
    rcases List.suffix_cons_iff.mp holder with rfl | holder
    · rw [he.windowStart]
      exact h.allowance events List.suffix_rfl
    · exact h.allowance older holder
  distinct := by
    rw [he.messages]
    exact h.distinct

/-! ### Admissions -/

theorem admittedIn_cons (start time : CanonicalTime) (m : MessageId) :
    admittedIn g start ((time, .admitted m) :: events) =
      if start ≤ time ∧ time.millis < start.millis + g.rateLimit.interval.val.val then
        m :: admittedIn g start events
      else admittedIn g start events := rfl

theorem admittedIn_eq_nil {start : CanonicalTime} (h : ∀ t m, (t, .admitted m) ∈ events → t < start) :
    admittedIn g start events = [] := by
  induction events with
  | nil => rfl
  | cons event older ih =>
    have hrest := ih fun t m hm => h t m (List.mem_cons_of_mem _ hm)
    by_cases hsilent : ∃ m, event.2 = .admitted m
    · obtain ⟨time, event⟩ := event
      obtain ⟨m, rfl⟩ := hsilent
      rw [admittedIn_cons, if_neg fun hin => not_le.mpr (h time m (List.mem_cons_self ..)) hin.1, hrest]
    · rw [(silent_of_ne fun m hm => hsilent ⟨m, hm⟩).admittedIn, hrest]

/-- Nothing was admitted in a window that lies beyond the last one. -/
theorem Windowed.none (h : Windowed g events) {start : CanonicalTime}
    (hstart : (windowStart g events).millis + g.rateLimit.interval.val.val ≤ start.millis) :
    admittedIn g start events = [] :=
  admittedIn_eq_nil fun t m hm => CanonicalTime.lt_iff_millis.mpr ((h.last t m hm).trans_le hstart)

/-- How an admission moves on the rate window. -/
inductive Window (g : SenderScopedGrant) (events : List (CanonicalTime × LaneEvent))
    (now : CanonicalTime) (count : ℕ) : Prop
  | current : windowStart g events ≤ now →
      now.millis < (windowStart g events).millis + g.rateLimit.interval.val.val →
      count = (admittedIn g (windowStart g events) events).length + 1 → Window g events now count
  | opened : windowStart g events ≤ now →
      (windowStart g events).millis + g.rateLimit.interval.val.val ≤ now.millis →
      count = 1 → Window g events now count

theorem windowStart_admitted (now : CanonicalTime) (m : MessageId) :
    windowStart g ((now, .admitted m) :: events) =
      if (windowStart g events).millis + g.rateLimit.interval.val.val ≤ now.millis then now
      else windowStart g events := rfl

/-- The admissions of the new window are those counted. -/
theorem Window.count {count : ℕ} (h : Window g events now count) (hwindowed : Windowed g events)
    (hinterval : 0 < g.rateLimit.interval.val.val) :
    (admittedIn g (windowStart g ((now, .admitted message) :: events))
      ((now, .admitted message) :: events)).length = count := by
  rw [windowStart_admitted]
  cases h with
  | current hstart hend hcount =>
    rw [if_neg (not_le.mpr hend), admittedIn_cons, if_pos ⟨hstart, hend⟩, hcount]
    rfl
  | opened hstart hend hcount =>
    rw [if_pos hend, admittedIn_cons, if_pos ⟨le_rfl, by omega⟩, hwindowed.none hend, hcount]
    rfl

theorem Windowed.admitted {count : ℕ} (h : Windowed g events) (hwindow : Window g events now count)
    (hinterval : 0 < g.rateLimit.interval.val.val) : Windowed g ((now, .admitted message) :: events) where
  closed older holder := by
    rcases List.suffix_cons_iff.mp holder with rfl | holder
    · exact .inl rfl
    rw [windowStart_admitted]
    have hclosed := h.closed older holder
    cases hwindow with
    | current hstart hend =>
      rwa [if_neg (by omega)]
    | opened hstart hend =>
      rw [if_pos hend]
      rw [CanonicalTime.le_iff_millis] at hstart
      rcases hclosed with hsame | hbefore
      · exact .inr (hsame ▸ hend)
      · exact .inr (by omega)
  last t m hm := by
    rw [windowStart_admitted]
    cases hwindow with
    | current hstart hend =>
      rw [if_neg (by omega)]
      rcases List.mem_cons.mp hm with heq | hm
      · cases heq
        exact hend
      · exact h.last t m hm
    | opened hstart hend =>
      rw [if_pos hend]
      rcases List.mem_cons.mp hm with heq | hm
      · cases heq
        omega
      · have := h.last t m hm
        omega

theorem Bounded.admitted_cons {count : ℕ} (h : Bounded g events) (hwindowed : Windowed g events)
    (hwindow : Window g events now count) (hinterval : 0 < g.rateLimit.interval.val.val)
    (hallowed : count ≤ g.rateLimit.maxMessages.val) (hinside : Inside g now events)
    (hfresh : message ∉ messages events) : Bounded g ((now, .admitted message) :: events) where
  admitted time m older holder := by
    rcases List.suffix_cons_iff.mp holder with heq | holder
    · cases heq
      exact hinside
    · exact h.admitted time m older holder
  repeated time m older holder := by
    rcases List.suffix_cons_iff.mp holder with heq | holder
    · cases heq
    · exact h.repeated time m older holder
  allowance older holder := by
    have hcount := @Window.count g now message events count hwindow hwindowed hinterval
    rcases List.suffix_cons_iff.mp holder with rfl | holder
    · exact hcount.trans_le hallowed
    have hbefore := h.allowance older holder
    rw [admittedIn_cons]
    split_ifs with hin
    · -- an older window that is not the current one is over
      obtain ⟨-, hlt⟩ := hin
      rcases hwindowed.closed older holder with hsame | hclosed
      · rw [hsame] at hlt ⊢
        cases hwindow with
        | current hstart hend hnext =>
          rw [hnext] at hallowed
          exact hallowed
        | opened hstart hend => omega
      · cases hwindow with
        | current hstart | opened hstart =>
          rw [CanonicalTime.le_iff_millis] at hstart
          omega
    · exact hbefore
  distinct := List.nodup_cons.mpr ⟨hfresh, h.distinct⟩

/-! ### Steps -/

/-- A method that admits nothing leaves the window and the messages alone. -/
structure Rests (l l' : SenderScopedLane) : Prop where
  sound : l'.Sound
  grant : l'.grant = l.grant
  window : l'.rateWindowStartedAt = l.rateWindowStartedAt
  count : l'.messagesInRateWindow = l.messagesInRateWindow
  messages : l'.admittedMessages = l.admittedMessages

theorem Kept.rests {event : CanonicalTime × LaneEvent} (h : b.Kept g) (hevent : ∀ m, event.2 ≠ .admitted m)
    (hrests : Rests b.lane l) (hactive : l.lastActivity = lastActive g (event :: b.events))
    (hrepeated : ∀ m, event.2 = .repeated m → Inside g event.1 b.events)
    (hrevoked : ∀ t, (t, .revoked) ∈ event :: b.events → l.state = .revoked) :
    Kept g ⟨l, event :: b.events⟩ := by
  have hsilent : Silent g event := silent_of_ne hevent
  refine ⟨⟨hrests.sound, hrests.grant.trans h.tells.grant, hactive, ?_, ?_, fun m => ?_, hrevoked⟩,
    h.bounded.silent hsilent hrepeated, h.windowed.silent hsilent⟩
  · exact hrests.window.trans (h.tells.window.trans (hsilent.windowStart _).symm)
  · show l.messagesInRateWindow.val = (admittedIn g (windowStart g (event :: b.events)) (event :: b.events)).length
    rw [hrests.count, h.tells.count, hsilent.windowStart, hsilent.admittedIn]
  · show l.admittedMessages.contains m = true ↔ m ∈ messages (event :: b.events)
    rw [hrests.messages, h.tells.messages, hsilent.messages]

theorem Kept.admitted (h : b.Kept g) (ha : b.lane.Admits message now l) :
    Kept g ⟨l, (now, .admitted message) :: b.events⟩ := by
  have hgrant := h.tells.grant
  obtain ⟨-, -, hinterval⟩ := SenderScopedLane.starts_of_validate h.tells.sound.grant
  rw [hgrant] at hinterval
  have hstart : windowStart g b.events ≤ now :=
    h.tells.window ▸ h.tells.sound.current.trans ha.present
  have hwindow : Window g b.events now l.messagesInRateWindow.val := by
    have hcount := h.tells.count
    cases ha.falls with
    | current hsame hend hnext =>
      rw [h.tells.window, hgrant] at hend
      exact .current hstart hend (by rw [hnext, hcount])
    | opened hnow hcloses hend hnext =>
      rw [h.tells.window, hgrant] at hend
      exact .opened hstart hend hnext
  have hfresh : message ∉ messages b.events := by
    rw [← h.tells.messages, Bool.not_eq_true]
    exact SortedMap.contains_eq_false.mpr ha.fresh
  have hallowed : l.messagesInRateWindow.val ≤ g.rateLimit.maxMessages.val := hgrant ▸ ha.allowed
  refine ⟨⟨h.tells.sound.admits ha, ha.grant.trans hgrant, ha.lastActivity, ?_,
    (@Window.count g now message _ _ hwindow h.windowed hinterval).symm, fun m => ?_, fun t ht => ?_⟩,
    h.bounded.admitted_cons h.windowed hwindow hinterval hallowed (h.tells.alive ha.opened) hfresh,
    h.windowed.admitted hwindow hinterval⟩
  · show l.rateWindowStartedAt = windowStart g ((now, .admitted message) :: b.events)
    rw [windowStart_admitted]
    cases ha.falls with
    | current hsame hend =>
      rw [h.tells.window, hgrant] at hend
      rw [if_neg (not_le.mpr hend), hsame, h.tells.window]
    | opened hnow hcloses hend =>
      rw [h.tells.window, hgrant] at hend
      rw [if_pos hend, hnow]
  · show l.admittedMessages.contains m = true ↔ m ∈ message :: messages b.events
    rw [ha.messages, List.mem_cons, ← h.tells.messages, SortedMap.contains, SortedMap.get?_insert]
    split_ifs with heq
    · simp [heq]
    · simp [heq, SortedMap.contains]
  · rcases List.mem_cons.mp ht with heq | ht
    · cases heq
    · have hrevoked := h.tells.revoked t ht
      rw [ha.opened.active] at hrevoked
      cases hrevoked

theorem Kept.reaches {effect : LaneHorizonEffect} (h : b.Kept g) (hr : b.lane.Reaches now effect l) :
    Kept g ⟨l, (now, .horizon effect) :: b.events⟩ := by
  have hsound := h.tells.sound.reaches hr
  refine h.rests (by simp) ?_ ?_ (by simp) fun t ht => ?_
  · cases hr <;> exact ⟨hsound, rfl, rfl, rfl, rfl⟩
  · cases hr <;> exact h.tells.lastActivity
  · rcases List.mem_cons.mp ht with heq | ht
    · cases heq
    have hrevoked := h.tells.revoked t ht
    cases hr with
    | nothing => exact hrevoked
    | ended hactive | awaited hactive | reminded hactive =>
      rw [hactive] at hrevoked
      cases hrevoked

theorem Kept.reconfirms (h : b.Kept g) (hr : b.lane.Reconfirms now l) :
    Kept g ⟨l, (now, .reconfirmed) :: b.events⟩ := by
  have hsound := h.tells.sound.reconfirms hr
  obtain ⟨horizon, version, -, -, rfl⟩ := hr.changed
  refine h.rests (by simp) ⟨hsound, rfl, rfl, rfl, rfl⟩ rfl (by simp) fun t ht => ?_
  rcases List.mem_cons.mp ht with heq | ht
  · cases heq
  · have hrevoked := h.tells.revoked t ht
    rw [hr.awaiting] at hrevoked
    cases hrevoked

theorem Kept.revoked (h : b.Kept g) (hr : b.lane.revoke = .ok l) :
    Kept g ⟨l, (now, .revoked) :: b.events⟩ := by
  have hsound := h.tells.sound.revoked hr
  obtain ⟨hstate, hsame⟩ := SenderScopedLane.revoke_eq_ok hr
  refine h.rests (by simp) ?_ ?_ (by simp) fun _ _ => hstate
  · rcases hsame with rfl | ⟨version, -, rfl⟩ <;> exact ⟨hsound, rfl, rfl, rfl, rfl⟩
  · rcases hsame with rfl | ⟨version, -, rfl⟩ <;> exact h.tells.lastActivity

theorem Kept.call {c : LaneCall × CanonicalTime} {b' : LaneLog} (h : b.Kept g) (hc : b.call c = .ok b') :
    b'.Kept g := by
  obtain ⟨c, now⟩ := c
  obtain ⟨⟨l, event⟩, happly, rfl⟩ := map_eq_ok.mp hc
  cases c with
  | consume message capability declarations evidence =>
    obtain ⟨⟨l, repeated⟩, hconsume, heq⟩ := map_eq_ok.mp happly
    cases heq
    rcases SenderScopedLane.consume_eq_ok hconsume with ⟨rfl, rfl, hopen, -⟩ | ⟨rfl, ha⟩
    · refine h.rests (by simp) ⟨h.tells.sound, rfl, rfl, rfl, rfl⟩ h.tells.lastActivity
        (fun _ _ => h.tells.alive hopen) fun t ht => ?_
      rcases List.mem_cons.mp ht with heq | ht
      · cases heq
      · exact h.tells.revoked t ht
    · exact h.admitted ha
  | reachHorizon =>
    obtain ⟨⟨l, effect⟩, hreach, heq⟩ := map_eq_ok.mp happly
    cases heq
    exact h.reaches (SenderScopedLane.reachHorizon_eq_ok hreach)
  | reconfirm =>
    obtain ⟨l, hreconfirm, heq⟩ := map_eq_ok.mp happly
    cases heq
    exact h.reconfirms (SenderScopedLane.reconfirm_eq_ok hreconfirm)
  | revoke =>
    obtain ⟨l, hrevoke, heq⟩ := map_eq_ok.mp happly
    cases heq
    exact h.revoked hrevoke

theorem Kept.calls (h : b.Kept g) (cs : List (LaneCall × CanonicalTime)) : (b.calls cs).Kept g := by
  rw [calls_eq]
  exact Machine.run_preserves (fun _ _ _ hb hc => hb.call hc) h cs

theorem kept_new {l : SenderScopedLane} (h : l.New) : Kept l.grant ⟨l, []⟩ where
  tells := ⟨h.sound, rfl, h.lastActivity, h.rateWindowStartedAt,
    congrArg Fin.val h.messagesInRateWindow, fun m => by simp [h.admittedMessages, messages, SortedMap.contains],
    by simp⟩
  bounded := by
    refine ⟨fun time m older holder => ?_, fun time m older holder => ?_, fun older _ => Nat.zero_le _,
      List.nodup_nil⟩
    · cases List.eq_nil_of_suffix_nil holder
    · cases List.eq_nil_of_suffix_nil holder
  windowed := ⟨fun older holder => by rw [List.eq_nil_of_suffix_nil holder]; exact .inl rfl, by simp⟩

end

/-! ### The bounds of a lane -/

/-- What a lane keeps to, and what its next call can do. -/
structure Safe (g : SenderScopedGrant) (b : LaneLog) : Prop where
  bounded : Bounded g b.events
  /-- A message seen before consumes nothing. -/
  repeats : ∀ m ∈ messages b.events, ∀ capability declarations evidence now,
    ((SenderScopedLane.Method.consume m capability declarations evidence now).on b.lane).2 = b.lane
  /-- A reconfirmation gives back no allowance. -/
  reconfirms : ∀ now result l, (SenderScopedLane.Method.reconfirm now).on b.lane = (result, l) →
    l.rateWindowStartedAt = b.lane.rateWindowStartedAt ∧
      l.messagesInRateWindow = b.lane.messagesInRateWindow ∧
      l.admittedMessages = b.lane.admittedMessages
  revoked : ∀ t, (t, .revoked) ∈ b.events → b.lane.state = .revoked
  /-- Nothing changes a revoked lane. -/
  final : b.lane.state = .revoked → ∀ (c : LaneCall) now, ((c.method now).on b.lane).2 = b.lane
  refused : ∀ (c : LaneCall) now e l, (c.method now).on b.lane = (.error e, l) → l = b.lane

section
variable {g : SenderScopedGrant} {b : LaneLog}

theorem Kept.repeats (h : b.Kept g) {m : MessageId} (hm : m ∈ messages b.events)
    {capability : Option LaneId} {declarations : MessageDeclarations} {evidence : LaneEvidence}
    {now : CanonicalTime} :
    ((SenderScopedLane.Method.consume m capability declarations evidence now).on b.lane).2 = b.lane := by
  rcases hon : (SenderScopedLane.Method.consume m capability declarations evidence now).on b.lane with
    ⟨e | repeated, l⟩
  · exact SenderScopedLane.computes_consume.refused hon
  · have hconsume := SenderScopedLane.computes_consume.accepted hon
    rcases SenderScopedLane.consume_eq_ok hconsume with ⟨-, hsame, -⟩ | ⟨-, ha⟩
    · exact hsame
    · have hseen := (h.tells.messages m).mpr hm
      rw [SortedMap.contains, ha.fresh] at hseen
      cases hseen

theorem reconfirm_keeps {l l' : SenderScopedLane} {now : CanonicalTime} {result : Except CapabilityError Unit}
    (h : (SenderScopedLane.Method.reconfirm now).on l = (result, l')) :
    l'.rateWindowStartedAt = l.rateWindowStartedAt ∧
      l'.messagesInRateWindow = l.messagesInRateWindow ∧ l'.admittedMessages = l.admittedMessages := by
  cases result with
  | error e =>
    rw [SenderScopedLane.computes_reconfirm.refused h]
    exact ⟨rfl, rfl, rfl⟩
  | ok u =>
    obtain ⟨next, hreconfirm, heq⟩ := map_eq_ok.mp (SenderScopedLane.computes_reconfirm.accepted h)
    cases heq
    obtain ⟨horizon, version, -, -, rfl⟩ := (SenderScopedLane.reconfirm_eq_ok hreconfirm).changed
    exact ⟨rfl, rfl, rfl⟩

theorem revoked_final {l : SenderScopedLane} (h : l.state = .revoked) (c : LaneCall) (now : CanonicalTime) :
    ((c.method now).on l).2 = l := by
  rcases hon : (c.method now).on l with ⟨e | event, l'⟩
  · exact (c.computes_method now).refused hon
  have happly := (c.computes_method now).accepted hon
  cases c with
  | consume message capability declarations evidence =>
    obtain ⟨⟨next, repeated⟩, hconsume, heq⟩ := map_eq_ok.mp happly
    cases heq
    rcases SenderScopedLane.consume_eq_ok hconsume with ⟨-, hsame, -⟩ | ⟨-, ha⟩
    · exact hsame
    · have hactive := ha.opened.active
      rw [h] at hactive
      cases hactive
  | reachHorizon =>
    obtain ⟨⟨next, effect⟩, hreach, heq⟩ := map_eq_ok.mp happly
    cases heq
    cases SenderScopedLane.reachHorizon_eq_ok hreach with
    | nothing => rfl
    | ended hactive | awaited hactive | reminded hactive =>
      rw [h] at hactive
      cases hactive
  | reconfirm =>
    obtain ⟨next, hreconfirm, heq⟩ := map_eq_ok.mp happly
    cases heq
    have hawaiting := (SenderScopedLane.reconfirm_eq_ok hreconfirm).awaiting
    rw [h] at hawaiting
    cases hawaiting
  | revoke =>
    obtain ⟨next, hrevoke, heq⟩ := map_eq_ok.mp happly
    cases heq
    rw [SenderScopedLane.revoke, if_pos h] at hrevoke
    cases hrevoke
    rfl

theorem Kept.safe (h : b.Kept g) : b.Safe g where
  bounded := h.bounded
  repeats _ hm _ _ _ _ := h.repeats hm
  reconfirms _ _ _ hon := reconfirm_keeps hon
  revoked := h.tells.revoked
  final hrevoked c now := revoked_final hrevoked c now
  refused c now _ _ hon := (c.computes_method now).refused hon

end

/-- **A lane keeps to its terms.** Whatever calls are made, and at whatever times: every
message it admitted came after its start, before its end, before any revocation and, if it
expires, within its lifetime of the last activity or reconfirmation; no rate window was used
beyond its allowance; and no message was counted twice. -/
theorem lane_bounded [Crypto] {l : SenderScopedLane} (h : l.Created) (cs : List (LaneCall × CanonicalTime)) :
    ((⟨l, []⟩ : LaneLog).calls cs).Safe l.grant :=
  ((kept_new h.new).calls cs).safe

/-! ### One message in each window -/

namespace Example

def grant : SenderScopedGrant where
  id := ⟨1⟩
  subject := .legacyDomain ⟨"bank.com".toList⟩
  sender := ⟨2⟩
  recipient := ⟨3⟩
  protocolVersion := ⟨2⟩
  deploymentDomain := Vector.replicate 32 3
  intendedProvider := ⟨4⟩
  recipientOperationalKey := ⟨5⟩
  purpose := .known .transactional
  origin := some .legacyOrUnspecified
  declarationAuthority := .legacyGateway
  lifetime := ⟨1000⟩
  rateLimit := ⟨1, ⟨100⟩⟩
  mode := .expiring
  issuedAt := ⟨10⟩
  notBefore := ⟨10⟩
  notAfter := ⟨10000⟩
  version := ⟨1⟩

def lane : SenderScopedLane where
  authority := .recipientGrant
  grant := grant
  state := .active
  lastActivity := ⟨10⟩
  horizonAt := ⟨1010⟩
  rateWindowStartedAt := ⟨10⟩
  messagesInRateWindow := 0
  version := .initial
  admittedMessages := ∅

def consume (message : MessageId) : LaneCall :=
  .consume message (some ⟨1⟩)
    ⟨.known .transactional, ⟨.legacyOrUnspecified, .legacyGateway ⟨4⟩⟩, none⟩
    (.legacy ⟨1, ⟨"bank.com".toList⟩, ⟨⟨"bank.com".toList⟩, some ⟨.strict⟩, none, ⟨15⟩⟩⟩)

def calls : List (LaneCall × CanonicalTime) :=
  [(consume ⟨1⟩, ⟨20⟩), (consume ⟨1⟩, ⟨21⟩), (consume ⟨2⟩, ⟨22⟩), (consume ⟨2⟩, ⟨120⟩),
    (.reachHorizon, ⟨1120⟩), (consume ⟨3⟩, ⟨1121⟩), (.reconfirm, ⟨1130⟩), (consume ⟨3⟩, ⟨1230⟩),
    (.revoke, ⟨1300⟩), (consume ⟨4⟩, ⟨1301⟩)]

@[reducible] def crypto : Crypto := ⟨fun _ => zero32, fun _ => false, fun _ _ _ => false⟩

end Example

/-- The second message waits for the next window and the third for the reconfirmation; the
fourth comes too late. -/
theorem lane_bounded_windows : ((⟨Example.lane, []⟩ : LaneLog).calls Example.calls).Safe Example.grant ∧
    ((⟨Example.lane, []⟩ : LaneLog).calls Example.calls).events =
      [(⟨1300⟩, .revoked), (⟨1230⟩, .admitted ⟨3⟩), (⟨1130⟩, .reconfirmed),
        (⟨1120⟩, .horizon .reconfirmationRequired), (⟨120⟩, .admitted ⟨2⟩), (⟨21⟩, .repeated ⟨1⟩),
        (⟨20⟩, .admitted ⟨1⟩)] := by
  have hcreated : @SenderScopedLane.Created Example.crypto Example.lane :=
    @SenderScopedLane.Created.granted Example.crypto Example.grant Example.lane (by decide +kernel)
  exact ⟨@lane_bounded Example.crypto Example.lane hcreated Example.calls, by decide +kernel⟩

end LaneLog
end CsMail
