import CsMail.Application.Soundness
import CsMail.Finance.RequestLedger

/-! Lifecycle and money agree.

A request's settlement is the one its lifecycle calls for, in every state a run reaches.
So a recipient's decision about an awaited request always finds a payment record it can
settle: `DecisionRefusal` lists what such a command can still be refused for, and no
entry of the list reads the record. -/
namespace CsMail
open Library Journal

/-- The command that carries a decision. -/
def Decision.command (v : Version) : Decision → ProtocolCommand
  | accept => .acceptRelationship v
  | reject => .rejectRelationship v
  | block => .blockRelationship v

section
variable (s : SettlementSnapshot) (context : TransitionContext) (r : RelationshipRequest)
  (a : RequestSubmission)

/-- A counter, a time or a ledger account has no room for the decision. -/
inductive Exhausted : Prop
  | relationship (h : s.state.relationship.version.checkedNext = none)
  | replyEpoch (h : Checked.succ s.state.relationship.replyEpoch.val = none)
  | lane {lane : SenderScopedLane} (hlane : s.lane = some lane) (h : lane.version.checkedNext = none)
  | request (h : r.version.checkedNext = none)
  | history (h : s.history.version.checkedNext = none)
  | rejection (h : context.now.checkedAdd r.terms.rejectionCooldown = none)
  | expiry (h : a.decisionDeadline.checkedAdd r.terms.expiryCooldown = none)
  | ledger {f f' : RequestFinancials} {e : RequestFinancialEffects} {settlement : RequestSettlement}
    (hf : s.payments.get? r.id = some f) (hsettle : f.settle settlement context.now = .ok (f', e))
    (h : s.ledger.apply e.postings = .error .arithmeticOverflow)

/-- What the host can have brought that ends every command about an awaited request. -/
inductive HostRefusal : ProtocolError → Prop
  | version (h : context.protocolVersion ≠ ⟨2⟩ ∨
      context.protocolVersion ≠ context.policy.protocolVersion) :
    HostRefusal .protocolVersionMismatch
  | policy (h : context.policy.validate ≠ .ok ()) : HostRefusal .policyInvalid
  | unit (h : s.ledger.unit ≠ context.policy.unit) : HostRefusal .amountMismatch
  | lane {lane : SenderScopedLane} (hlane : s.lane = some lane)
    (h : lane.grant.sender ≠ s.state.relationship.key.sender ∨
      lane.grant.recipient ≠ s.state.relationship.key.recipient) :
    HostRefusal .incompleteSnapshot
  | overflow (h : Exhausted s context r a) : HostRefusal .arithmeticOverflow

/-- What a decision about an awaited request can be refused for. -/
inductive DecisionRefusal (d : Decision) : ProtocolError → Prop
  | host {error : ProtocolError} (h : HostRefusal s context r a error) : DecisionRefusal d error
  | accepted (hd : d = .reject) (h : s.state.relationship.state = .accepted) :
    DecisionRefusal d .invalidState
  | blocked (hd : d ≠ .block) (h : s.state.relationship.state = .blocked) :
    DecisionRefusal d .contactBlocked

end

/-! ### Each step of a decision -/

section Steps
variable {P : ProtocolError → Prop} {m m' : ManifestBuilder} {id : RequestId}

theorem setRelationshipState_refusesOnly {state : RelationshipState}
    (h : m.next.relationship.version.checkedNext = none → P .arithmeticOverflow) :
    RefusesOnly P (m.setRelationshipState state) :=
  .bind (.okOr h) fun _ _ => .ok _

theorem planRevocation_error {lane : SenderScopedLane} {e : CapabilityError}
    (h : lane.planRevocation = .error e) :
    e = .arithmeticOverflow ∧ lane.version.checkedNext = none := by
  unfold SenderScopedLane.planRevocation SenderScopedLane.revoke at h
  split_ifs at h with hrevoked
  simp only [bind_eq_error, okOr_eq_error, bind_eq_ok, okOr_eq_ok, reduceCtorEq, and_false,
    exists_false, or_false] at h
  exact ⟨h.2.symm, h.1⟩

theorem terminateLane_refusesOnly
    (hepoch : Checked.succ m.next.relationship.replyEpoch.val = none → P .arithmeticOverflow)
    (hlane : ∀ lane, m.lane = some lane → lane.version.checkedNext = none → P .arithmeticOverflow) :
    RefusesOnly P (terminateLane m) := by
  refine .bind (.okOr hepoch) fun epoch _ => ?_
  dsimp only
  split
  · exact .ok _
  · rename_i lane hm
    refine .bind (.mapError fun e he => ?_) fun effect _ => ?_
    · obtain ⟨rfl, hnone⟩ := planRevocation_error he
      exact hlane lane hm hnone
    · cases effect <;> exact .ok _

theorem closeRequest_refusesOnly {r : RelationshipRequest} {l : RequestLifecycle}
    (h : r.version.checkedNext = none → P .arithmeticOverflow) :
    RefusesOnly P (closeRequest m id r l) :=
  .bind (.okOr h) fun _ _ => .ok _

theorem applyCooldown_refusesOnly {start : CanonicalTime} {d : Duration}
    (hstart : start.checkedAdd d = none → P .arithmeticOverflow)
    (hversion : m.history.version.checkedNext = none → P .arithmeticOverflow) :
    RefusesOnly P (applyCooldown m start d) :=
  .bind (.bind (.okOr hstart) fun _ _ => .bind (.okOr hversion) fun _ _ => .ok _) fun _ _ => .ok _

variable {r : RelationshipRequest} {a : RequestSubmission} {f : RequestFinancials}

/-- An awaited request whose record is funded and not settled yet. -/
structure Payable (m : ManifestBuilder) (r : RelationshipRequest) (a : RequestSubmission)
    (f : RequestFinancials) : Prop where
  active : m.next.activeRequest = some r
  stored : m.next.requests.get? r.id = some r
  awaiting : r.lifecycle = .awaitingRecipientDecision a
  record : m.payments.get? r.id = some f
  linked : f.Linked
  unsettled : f.settlement = none
  funded : f.fundingFinalized = true

namespace Payable

theorem awaited (h : Payable m r a f) : awaitedRequest m r.id = .ok (r, a) := by
  simp [awaitedRequest, h.stored, okOr, refuseIf, h.awaiting,
    RequestLifecycle.isAwaitingRecipientDecision, RequestLifecycle.submission]

/-- Its money is settled, whatever the settlement. -/
theorem settles (h : Payable m r a f) (s : RequestSettlement) : ∃ f' e m₁,
    f.settle s m.now = .ok (f', e) ∧ settleFinancials m r.id s = .ok m₁ ∧
      m₁.batch = m.batch.extend e.postings ∧ m₁.now = m.now ∧ m₁.history = m.history := by
  obtain ⟨f', e, hsettle⟩ := RequestFinancials.settle_succeeds (s := s) m.now h.linked h.unsettled
    (.inr h.funded)
  refine ⟨f', e, applyFinancialEffects {m with payments := m.payments.insert r.id f'} r.id e,
    hsettle, ?_, rfl, rfl, rfl⟩
  simp only [settleFinancials, h.record, okOr, hsettle, Except.mapError, ok_bind]

end Payable

/-- Ending the request refuses for `P` only, and posts exactly what settling its record
emits. -/
structure Settles (P : ProtocolError → Prop) (m : ManifestBuilder) (f : RequestFinancials)
    (x : Except ProtocolError ManifestBuilder) : Prop where
  refusesOnly : RefusesOnly P x
  posts : ∀ m', x = .ok m' → ∃ s f' e,
    f.settle s m.now = .ok (f', e) ∧ m'.batch = m.batch.extend e.postings

/-- No counter or time of the request stands in the way. -/
structure Roomy (P : ProtocolError → Prop) (m : ManifestBuilder) (r : RelationshipRequest)
    (a : RequestSubmission) : Prop where
  request : r.version.checkedNext = none → P .arithmeticOverflow
  history : m.history.version.checkedNext = none → P .arithmeticOverflow
  rejection : m.now.checkedAdd r.terms.rejectionCooldown = none → P .arithmeticOverflow
  expiry : a.decisionDeadline.checkedAdd r.terms.expiryCooldown = none → P .arithmeticOverflow

namespace Payable

/-- Settled, the request is only closed, after a waiting time if one is set. -/
theorem settles_cooled (h : Payable m r a f) (hroom : Roomy P m r a) {m₁ : ManifestBuilder}
    {f' : RequestFinancials} {e : RequestFinancialEffects} {s : RequestSettlement}
    (hsettle : f.settle s m.now = .ok (f', e)) (hbatch : m₁.batch = m.batch.extend e.postings)
    (hhistory : m₁.history = m.history) {start : CanonicalTime} {d : Duration}
    (hstart : start.checkedAdd d = none → P .arithmeticOverflow)
    (lifecycle : EventRef → RequestLifecycle) :
    Settles P m f (applyCooldown m₁ start d >>= fun m => closeRequest m r.id r (lifecycle m.event)) where
  refusesOnly := .bind (applyCooldown_refusesOnly hstart (hhistory ▸ hroom.history))
    fun _ _ => closeRequest_refusesOnly hroom.request
  posts := fun m' hm' => by
    obtain ⟨m₂, hcooldown, hm'⟩ := bind_eq_ok.mp hm'
    obtain ⟨history, -, rfl⟩ := applyCooldown_eq_ok hcooldown
    obtain ⟨version, rfl⟩ := closeRequest_eq_ok hm'
    exact ⟨s, f', e, hsettle, hbatch⟩

theorem settleAccepted (h : Payable m r a f) (hroom : Roomy P m r a)
    (permission : AcceptancePermission) : Settles P m f (settleAccepted m r.id permission) := by
  obtain ⟨f', e, m₁, hsettle, hmoney, hbatch, -, -⟩ := h.settles .accepted
  have heq : CsMail.settleAccepted m r.id permission =
      closeRequest m₁ r.id r (.accepted permission a m₁.event) := by
    simp only [CsMail.settleAccepted, h.awaited, ok_bind, hmoney]
  rw [heq]
  refine ⟨closeRequest_refusesOnly hroom.request, fun m' hm' => ?_⟩
  obtain ⟨version, rfl⟩ := closeRequest_eq_ok hm'
  exact ⟨_, f', e, hsettle, hbatch⟩

theorem settleRejected (h : Payable m r a f) (hroom : Roomy P m r a) :
    Settles P m f (settleRejected m r.id) := by
  obtain ⟨f', e, m₁, hsettle, hmoney, hbatch, hnow, hhistory⟩ := h.settles .rejected
  simp only [CsMail.settleRejected, h.awaited, ok_bind, hmoney, hnow]
  exact h.settles_cooled hroom hsettle hbatch hhistory hroom.rejection (.rejected a)

theorem settleExpired (h : Payable m r a f) (hroom : Roomy P m r a) :
    Settles P m f (settleExpired m r.id) := by
  obtain ⟨f', e, m₁, hsettle, hmoney, hbatch, -, hhistory⟩ := h.settles .expired
  simp only [CsMail.settleExpired, h.awaited, ok_bind, hmoney]
  exact h.settles_cooled hroom hsettle hbatch hhistory hroom.expiry (.expired a)

theorem decideRequest (h : Payable m r a f) (hroom : Roomy P m r a) (d : Decision) :
    Settles P m f (decideRequest m d) := by
  simp only [CsMail.decideRequest, h.active, h.awaiting]
  split_ifs with htime
  · cases d with
    | accept => exact h.settleAccepted hroom .standing
    | reject | block => exact h.settleRejected hroom
  · exact h.settleExpired hroom

end Payable
end Steps

/-! ### A whole decision -/

section Decide
variable {R : RelationshipRef} {e : EngineState} {h : RequestHistory}
  {lane : Option SenderScopedLane} {context : TransitionContext} {r : RelationshipRequest}
  {a : RequestSubmission} {f : RequestFinancials}

/-- The snapshot of a sound relationship that awaits a decision is refused only for what
the host brought with it. -/
theorem validateSnapshot_refusesOnly (hs : e.Sound R)
    (hreference : h.reference = e.protocol.relationship.history)
    (hrecipient : h.recipient = e.protocol.relationship.key.recipient)
    (hr : e.protocol.requests.get? r.id = some r)
    (hopen : r.lifecycle = .awaitingRecipientDecision a) :
    RefusesOnly (HostRefusal (e.snapshot h lane) context r a)
      (validateSnapshot (e.snapshot h lane) context) := by
  have hvalid : (e.snapshot h lane).state.validate = .ok () :=
    hs.validate hr (by rw [hopen]; rfl) (by rw [hopen]; rfl)
  have hpaid : ∀ q ∈ e.protocol.requests.values, (e.snapshot h lane).unpaid q = false := by
    intro q hq
    obtain ⟨id, hq⟩ := SortedMap.mem_values.mp hq
    obtain ⟨f, hf, hcapture, -⟩ := hs.agreement.paid id q hq
    rw [← hs.keyed id q hq] at hf
    simp [SettlementSnapshot.unpaid, EngineState.snapshot, hf, hcapture]
  refine .bind (.refuseIf fun hv => .version (.inl hv)) fun _ _ => ?_
  refine .bind (.refuseIf fun hv => by cases hv) fun _ _ => ?_
  refine .bind (.refuseIf fun hv => .version (.inr hv)) fun _ _ => ?_
  rw [hvalid, ok_bind]
  refine .bind (fun error herror => ?_) fun _ _ => ?_
  · obtain ⟨hpolicy, rfl⟩ := refuseIf_eq_error.mp herror
    exact .policy fun hok => refuseIf_eq_ok.mp hok hpolicy
  refine .bind (.refuseIf fun hunit => .unit hunit) fun _ _ => ?_
  refine .bind (.refuseIf fun hincomplete => ?_) fun _ _ => ?_
  · rcases hincomplete with hother | hother | hunpaid
    · exact absurd hreference hother
    · exact absurd hrecipient hother
    · obtain ⟨q, hq, hunpaid⟩ := List.any_eq_true.mp hunpaid
      rw [hpaid q hq] at hunpaid
      cases hunpaid
  · refine .refuseIf fun hlane => ?_
    obtain ⟨l, hl, hother⟩ := (Option.any_eq_true _ _).mp hlane
    exact .lane hl (of_decide_eq_true hother)

/-- The builder an awaited request's decision settles it in. -/
theorem payable_of_sound (hs : e.Sound R) {m : ManifestBuilder}
    (hrequests : m.next.requests = e.protocol.requests) (hpayments : m.payments = e.payments)
    (hr : e.protocol.requests.get? r.id = some r)
    (hopen : r.lifecycle = .awaitingRecipientDecision a) : ∃ f, Payable m r a f := by
  obtain ⟨f, hf, -, hlinked, hagrees⟩ := hs.agreement.paid _ r hr
  rw [hopen] at hagrees
  have hactive := hs.activeRequest hr (by rw [hopen]; rfl)
  refine ⟨f, ?_, hrequests ▸ hr, hopen, hpayments ▸ hf, hlinked, hagrees.1, hagrees.2⟩
  rw [← hactive, ProtocolState.activeRequest, hrequests]
  rfl

/-- A batch that keeps the ledger in step with the records is refused for its size only. -/
theorem finish_refusesOnly (hs : e.Sound R) {m : ManifestBuilder} {f' : RequestFinancials}
    {effects : RequestFinancialEffects} {s : RequestSettlement}
    (hf : e.payments.get? r.id = some f) (hlinked : f.Linked)
    (hsettle : f.settle s context.now = .ok (f', effects))
    (hbatch : m.batch = (∅ : LedgerBatch).extend effects.postings) :
    RefusesOnly (HostRefusal (e.snapshot h lane) context r a)
      (m.finish (e.snapshot h lane)) := by
  have hstep := RequestFinancials.settle_step hlinked hsettle
  obtain ⟨hbalanced, hfunded, -⟩ := hstep.keeps hf
  have hempty := LedgerBatch.extend_empty hstep.carries.moves
  rw [hempty] at hbalanced hfunded hbatch
  refine .bind (.mapError fun error herror => ?_) fun _ _ => .ok _
  rw [hbatch] at herror
  have hledger : sheetOf e.payments = e.ledger.view.signedBalance := by
    funext account
    exact (hs.balances account).symm
  have hoverflow := LedgerView.apply_funded hs.conserved hbalanced (hledger ▸ hfunded) herror
  rw [hoverflow] at herror ⊢
  exact .overflow (.ledger hf hsettle herror)

theorem relationshipDecision_refusesOnly (hs : e.Sound R)
    (hr : e.protocol.requests.get? r.id = some r) (hopen : r.lifecycle = .awaitingRecipientDecision a)
    {v : Version} (hv : e.protocol.relationship.version = v.into) (d : Decision) :
    RefusesOnly (DecisionRefusal (e.snapshot h lane) context r a d)
      (relationshipDecision (.new (e.snapshot h lane) context) v d) := by
  have hactive := hs.activeRequest hr (by rw [hopen]; rfl)
  -- Once the relationship has its new status, the request is settled in any case.
  have hrequest : ∀ m₁ m₂, ManifestBuilder.setRelationshipState (.new (e.snapshot h lane) context)
      d.target = .ok m₁ → (if d = .block then terminateLane m₁ else .ok m₁) = .ok m₂ →
      RefusesOnly (DecisionRefusal (e.snapshot h lane) context r a d) (decideRequest m₂ d) := by
    intro m₁ m₂ hstate hlane
    obtain ⟨hbook, hnow, -, -, hrequests, -⟩ := decisionState_spec hstate hlane
    obtain ⟨f, hpayable⟩ := payable_of_sound hs hrequests (congrArg RequestBook.payments hbook) hr hopen
    have hhistory : m₂.history = h := congrArg RequestBook.history hbook
    replace hnow : m₂.now = context.now := hnow
    refine (hpayable.decideRequest ?_ d).refusesOnly
    exact ⟨fun hnone => .host (.overflow (.request hnone)),
      fun hnone => .host (.overflow (.history (hhistory ▸ hnone))),
      fun hnone => .host (.overflow (.rejection (hnow ▸ hnone))),
      fun hnone => .host (.overflow (.expiry hnone))⟩
  refine .bind (.refuseIf fun hother => absurd hv hother) fun _ _ => ?_
  refine .bind (.refuseIf fun hrejected => .accepted hrejected.1 hrejected.2) fun _ _ => ?_
  refine .bind (.refuseIf fun hblocked => .blocked hblocked.1 hblocked.2) fun _ _ => ?_
  refine .bind (.refuseIf fun hnone => ?_) fun _ _ => ?_
  · exact absurd (hactive.symm.trans hnone.2.2) nofun
  refine .bind (setRelationshipState_refusesOnly fun hnone => .host (.overflow (.relationship hnone)))
    fun m₁ hstate => ?_
  obtain ⟨version, -, hm₁⟩ := ManifestBuilder.setRelationshipState_eq_ok hstate
  split_ifs with hd
  · refine .bind (terminateLane_refusesOnly (fun hnone => ?_) fun l hl hnone => ?_) fun m₂ hlane => ?_
    · rw [hm₁] at hnone
      exact .host (.overflow (.replyEpoch hnone))
    · rw [hm₁] at hl
      exact .host (.overflow (.lane hl hnone))
    · exact .bind (hrequest m₁ m₂ hstate (by rw [if_pos hd, hlane])) fun _ _ => .ok _
  · rw [ok_bind]
    exact .bind (hrequest m₁ m₁ hstate (if_neg hd)) fun _ _ => .ok _

/-- **Decisions are not refused for money.** -/
theorem decision_refusesOnly [Crypto] (hs : e.Sound R)
    (hreference : h.reference = e.protocol.relationship.history)
    (hrecipient : h.recipient = e.protocol.relationship.key.recipient)
    (hr : e.protocol.requests.get? r.id = some r) (hopen : r.lifecycle = .awaitingRecipientDecision a)
    {v : Version} (hv : e.protocol.relationship.version = v.into) (d : Decision)
    (key : OperationalKeyRef) (idempotencyKey : IdempotencyKey) :
    RefusesOnly (DecisionRefusal (e.snapshot h lane) context r a d)
      (transition (e.snapshot h lane) {
        command := d.command v
        actor := .recipient e.protocol.relationship.key.recipient
        key
        idempotencyKey} context) := by
  refine .bind ((validateSnapshot_refusesOnly hs hreference hrecipient hr hopen).mono fun _ => .host)
    fun _ _ => ?_
  refine .bind (.refuseIf fun hactor => ?_) fun _ _ => ?_
  · cases d <;> simp [authorized, Decision.command, EngineState.snapshot] at hactor
  have hdecide : applyCommand (.new (e.snapshot h lane) context) context
      (.recipient e.protocol.relationship.key.recipient) key (d.command v) =
      relationshipDecision (.new (e.snapshot h lane) context) v d := by
    cases d <;> rfl
  show RefusesOnly _ (applyCommand _ _ _ _ _ >>= _)
  rw [hdecide]
  refine .bind (relationshipDecision_refusesOnly hs hr hopen hv d) fun m hm => ?_
  obtain ⟨-, m₁, m₂, m₃, hstate, hlane, hrequest, rfl⟩ := relationshipDecision_eq_ok hm
  obtain ⟨hbook, hnow, -, -, hrequests, -⟩ := decisionState_spec hstate hlane
  have hpayments : m₂.payments = e.payments := congrArg RequestBook.payments hbook
  obtain ⟨f, hpayable⟩ := payable_of_sound hs hrequests hpayments hr hopen
  obtain ⟨s, f', effects, hsettle, hbatch⟩ := (hpayable.decideRequest (P := fun _ => True)
    ⟨fun _ => trivial, fun _ => trivial, fun _ => trivial, fun _ => trivial⟩ d).posts m₃ hrequest
  rw [show m₂.batch = ∅ from congrArg RequestBook.batch hbook] at hbatch
  refine RefusesOnly.mono ?_ fun _ => .host
  exact finish_refusesOnly hs (hpayments ▸ hpayable.record) hpayable.linked (hnow ▸ hsettle) hbatch

end Decide

/-! ### Every run -/

/-- **Lifecycle and money agree.** In every state a run reaches, every request has the
settlement its lifecycle calls for, and the recipient's decision about an awaited request
is never refused for the state of its payment. -/
theorem lifecycle_and_money_agree [Crypto] (inputs : List StoreInput) {R : RelationshipRef} {e : EngineState}
    (he : (StoreState.run inputs).relationships.get? R = some e) :
    (∀ id r, e.protocol.requests.get? id = some r → ∃ f, e.payments.get? id = some f ∧
      f.capture.id = r.funding ∧ r.lifecycle.Agrees f) ∧
    ∃ h, (StoreState.run inputs).histories.get? e.protocol.relationship.history = some h ∧
      ∀ id r a, e.protocol.requests.get? id = some r →
        r.lifecycle = .awaitingRecipientDecision a →
        ∀ (d : Decision) (v : Version), e.protocol.relationship.version = v.into →
        ∀ (lane : Option SenderScopedLane) (key : OperationalKeyRef)
          (idempotencyKey : IdempotencyKey) (context : TransitionContext),
        RefusesOnly (DecisionRefusal (e.snapshot h lane) context r a d)
          (transition (e.snapshot h lane) {
            command := d.command v
            actor := .recipient e.protocol.relationship.key.recipient
            key
            idempotencyKey} context) := by
  have hs := engine_sound inputs he
  constructor
  · intro id r hr
    obtain ⟨f, hf, hcapture, -, hagrees⟩ := hs.agreement.paid id r hr
    exact ⟨f, hf, hcapture, hagrees⟩
  · have hfiled := (StoreState.run_sound inputs).filed
    obtain ⟨h, hh, hrecipient⟩ := hfiled.shared R e he
    refine ⟨h, hh, fun id r a hr hopen d v hv lane key idempotencyKey context => ?_⟩
    have hreference := hfiled.reference _ h hh
    rw [← hs.keyed id r hr] at hr
    exact decision_refusesOnly hs hreference hrecipient hr hopen hv d key idempotencyKey

/-! ### One request, from its registration to its decision -/

namespace Example

def relationship : RelationshipRef := ⟨1, Vector.replicate 32 4⟩
def history : RequestHistoryRef := ⟨1, Vector.replicate 32 6⟩
def sender : ProtocolIdentity := ⟨10⟩
def recipient : ProtocolIdentity := ⟨20⟩
def provider : ProviderRef := ⟨1⟩
def unit : SettlementUnit := ⟨1⟩

def reply : ReplyLaneTerms where
  record := ⟨⟨100000⟩, ⟨5, ⟨1000⟩⟩, .known .personal⟩
  lifetime := by decide
  rateLimit := by decide
  purpose := rfl

def selected : SelectedRequestClass where
  id := ⟨1⟩
  description := "Note".toList
  identified := by decide
  described := by decide

def financial : FinancialTerms := ⟨RequestBooks.exampleScope, ⟨1⟩, 300, ⟨1⟩⟩

def policy : PolicySnapshot where
  replyLane := reply
  protocolVersion := ⟨2⟩
  policyVersion := ⟨1⟩
  privacyProfileVersion := ⟨1⟩
  retentionPolicyVersion := ⟨1⟩
  recipientProvider := provider
  unit := unit
  submissionWindow := ⟨1000⟩
  decisionWindow := ⟨1000⟩
  quoteLifetime := ⟨1000⟩
  backoff := [⟨0⟩, ⟨50⟩]
  financial := financial
  paymentProviderKey := RequestBooks.exampleKey
  expiryCooldown := ⟨70⟩
  rejectionCooldown := ⟨90⟩

def price : RequestPrice where
  policyVersion := ⟨1⟩
  unit := unit
  processingCharge := ⟨2⟩
  collateral := ⟨8⟩
  selected := selected
  published := PolicyVersion.first_ne_zero
  charged := by decide
  secured := by decide
  payable := by decide

/-- What the host brings to a command at a time. -/
def context (now : CanonicalTime) (position : JournalPosition) : TransitionContext where
  requestPermission := .bondedRequest
  requestDelivery := .nativeMailboxes
  admission := .ok ()
  now := now
  journalPosition := position
  protocolVersion := ⟨2⟩
  policy := policy
  pricing := .resolved price

def returnRoute : RequestReturnRoute := .native ⟨30, by decide⟩
def receivingAlias : AliasId := ⟨40, by decide⟩

/-- The terms the example's operator issues for the first request of a relationship. -/
def terms : RequestTerms where
  returnRoute := returnRoute
  receivingAlias := receivingAlias
  replyLane := .agreed reply
  selectedClass := selected
  pricingPolicyVersion := ⟨1⟩
  quoteId := ⟨3⟩
  protocolVersion := ⟨2⟩
  policyVersion := ⟨1⟩
  privacyProfileVersion := ⟨1⟩
  retentionPolicyVersion := ⟨1⟩
  relationship := relationship
  requestHistory := history
  sender := sender
  recipient := recipient
  recipientProvider := provider
  relationshipVersion := .initial
  historyVersion := .initial
  processingCharge := ⟨2⟩
  collateral := ⟨8⟩
  requestLevel := 0
  eligibilityTime := ⟨100⟩
  unit := unit
  submissionWindow := ⟨1000⟩
  decisionWindow := ⟨1000⟩
  issuedAt := ⟨101⟩
  expiresAt := ⟨1101⟩
  declarationDigest := none
  financial := financial
  paymentProviderKey := RequestBooks.exampleKey
  expiryCooldown := ⟨70⟩
  rejectionCooldown := ⟨90⟩
  nextRequestBackoff := ⟨50⟩

def request : RequestId := ⟨7⟩

def captureId : PaymentOperationId := ⟨146218146691575200244104445916258377803⟩

def receipt : SignedPaymentEvidence where
  evidence := {
    eventId := ⟨1⟩
    operationId := captureId
    operationDigest :=
      #v[139, 76, 135, 20, 77, 135, 228, 242, 47, 241, 183, 134, 116, 18, 67, 85, 205, 157, 173,
         48, 112, 223, 178, 85, 12, 124, 52, 140, 145, 230, 168, 238]
    outcome := .settled}
  signature :=
    [149, 49, 125, 107, 143, 130, 239, 21, 185, 226, 71, 57, 59, 108, 242, 60, 40, 219, 125, 70,
     197, 55, 109, 184, 206, 8, 2, 194, 98, 125, 0, 68, 125, 253, 227, 41, 149, 248, 128, 137, 176,
     49, 97, 247, 98, 132, 95, 197, 69, 64, 221, 125, 196, 92, 248, 15, 162, 103, 108, 227, 79,
     166, 106, 1]

/-- The hashes and the signature of the example, and no others. -/
@[reducible] def crypto : Crypto where
  sha256 bytes :=
    if bytes = requestPaymentBytes RequestBooks.exampleScope relationship request false then
      #v[110, 0, 151, 56, 241, 17, 161, 141, 218, 241, 82, 50, 184, 34, 32, 75, 17, 170, 239, 227,
         217, 4, 210, 184, 191, 255, 4, 144, 249, 158, 36, 129]
    else if bytes = requestPaymentBytes RequestBooks.exampleScope relationship request true then
      #v[40, 97, 194, 93, 166, 187, 89, 0, 176, 133, 144, 73, 159, 99, 161, 154, 117, 197, 137, 1,
         47, 87, 57, 214, 65, 7, 106, 55, 231, 73, 77, 77]
    else receipt.evidence.operationDigest
  validKey key := key = RequestBooks.exampleKey
  verifyStrict key message signature := key = RequestBooks.exampleKey ∧
    message = receipt.evidence.signingBytes ∧ signature = receipt.signature

def command (actor : ActorRef) (command : ProtocolCommand) : KernelCommand ProtocolCommand :=
  ⟨command, actor, ⟨1⟩, ⟨1⟩⟩

/-- A relationship is registered; its sender asks for terms, creates a request, pays and
submits it. -/
def run : List StoreInput := [
  .register relationship history sender recipient ⟨100⟩ unit,
  .execute relationship none (command (.sender sender)
    (.issueRequestTerms returnRoute receivingAlias ⟨1⟩ ⟨3⟩ none)) (context ⟨101⟩ ⟨1⟩),
  .execute relationship none (command (.sender sender)
    (.createRequest (Vector.replicate 32 3) request ⟨50⟩ terms)) (context ⟨102⟩ ⟨2⟩),
  .execute relationship none (command (.provider provider) (.recordPayment request receipt))
    (context ⟨103⟩ ⟨3⟩),
  .execute relationship none (command (.sender sender)
    (.submitRequestToRecipient request .initial ⟨60⟩ ⟨61⟩ ⟨zero32⟩ ⟨⟨900⟩⟩)) (context ⟨104⟩ ⟨4⟩)]

/-- The registered relationship after the run. -/
@[irreducible] def engine : EngineState :=
  ((@StoreState.run crypto run).relationships.get? relationship).get (by decide +kernel)

theorem engine_eq : (@StoreState.run crypto run).relationships.get? relationship = some engine := by
  unfold engine
  exact (Option.some_get _).symm

/-- The request of the run, awaiting its decision. -/
@[irreducible] def awaited : RelationshipRequest := (engine.protocol.requests.get? request).get (by decide +kernel)

theorem awaited_eq : engine.protocol.requests.get? request = some awaited := by
  unfold awaited
  exact (Option.some_get _).symm

/-- What the run comes to, evaluated once. -/
theorem awaited_facts :
    awaited.lifecycle = .awaitingRecipientDecision ⟨⟨104⟩, ⟨1104⟩⟩ ∧
      engine.protocol.relationship.history = history ∧
      engine.protocol.relationship.key.recipient = recipient ∧
      engine.protocol.relationship.version = (.initial : Version).into := by
  decide +kernel

theorem awaited_lifecycle : awaited.lifecycle = .awaitingRecipientDecision ⟨⟨104⟩, ⟨1104⟩⟩ := awaited_facts.1

end Example

/-- In the example the money is held while the decision is awaited, and blocking the
sender is refused for nothing but the list. -/
theorem lifecycle_and_money_agree_awaited :
    (∃ f, Example.engine.payments.get? Example.request = some f ∧ f.settlement = none ∧
      f.fundingFinalized = true) ∧
    ∃ h, (@StoreState.run Example.crypto Example.run).histories.get? Example.history = some h ∧
      RefusesOnly (DecisionRefusal (Example.engine.snapshot h none) (Example.context ⟨200⟩ ⟨5⟩)
          Example.awaited ⟨⟨104⟩, ⟨1104⟩⟩ .block)
        (@transition Example.crypto (Example.engine.snapshot h none)
          (Example.command (.recipient Example.recipient) (.blockRelationship .initial))
          (Example.context ⟨200⟩ ⟨5⟩)) := by
  obtain ⟨hagrees, h, hh, hdecision⟩ := @lifecycle_and_money_agree Example.crypto Example.run
    Example.relationship Example.engine Example.engine_eq
  obtain ⟨-, hhistory, hrecipient, hversion⟩ := Example.awaited_facts
  rw [hhistory] at hh
  obtain ⟨f, hf, -, hf'⟩ := hagrees _ _ Example.awaited_eq
  rw [Example.awaited_lifecycle] at hf'
  refine ⟨⟨f, hf, hf'⟩, h, hh, ?_⟩
  have := hdecision _ _ _ Example.awaited_eq Example.awaited_lifecycle .block .initial hversion none ⟨1⟩ ⟨1⟩
    (Example.context ⟨200⟩ ⟨5⟩)
  rwa [hrecipient] at this

end CsMail
