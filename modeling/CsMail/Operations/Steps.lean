import CsMail.Operations.Model

/-! What one transaction can do to the deployment: each of them, taken apart once.

A command that publishes takes a free number and moves nothing else; one that does not leaves everything as it
was. Either way its record is the only one that is added. -/
namespace CsMail.Operations
open Library
open Ingress (OperationsError ProcessingTarget ProcessingStatus)

def OperatorOutcome.changed : OperatorOutcome → Bool
  | serviceOfferPublished _ changed | requestPricingPublished _ changed _ | protocolPolicyPublished _ changed => changed

theorem decideProtocolPolicy_eq_ok {policy : ProtocolPolicy} {current sameVersion : Option ProtocolPolicy} {changed : Bool}
    (h : decideProtocolPolicy policy current sameVersion = .ok changed) :
    (changed = false ∧ current = some policy) ∨
      (changed = true ∧ ∀ old, current = some old → old.version < policy.version) := by
  obtain ⟨_, _, h⟩ := bind_eq_ok.mp h
  cases current with
  | none =>
    cases h
    exact .inr ⟨rfl, nofun⟩
  | some current =>
    dsimp only at h
    split_ifs at h with hsame hstale <;> cases h
    · exact .inl ⟨rfl, congrArg some hsame⟩
    · refine .inr ⟨rfl, fun old hold => ?_⟩
      cases hold
      exact not_le.mp hstale

theorem decidePolicy_eq_ok {policy : RequestPricingPolicy} {current sameVersion : Option RequestPricingPolicy}
    {changed : Bool} (h : decidePolicy policy current sameVersion = .ok changed) :
    (changed = false ∧ current = some policy) ∨
      (changed = true ∧ ∀ old, current = some old → old.version < policy.version ∧ policy.unit = old.unit) := by
  obtain ⟨_, _, h⟩ := bind_eq_ok.mp h
  cases current with
  | none =>
    cases h
    exact .inr ⟨rfl, nofun⟩
  | some current =>
    dsimp only at h
    split_ifs at h with hsame hstale hunit <;> cases h
    · exact .inl ⟨rfl, congrArg some hsame⟩
    · refine .inr ⟨rfl, fun old hold => ?_⟩
      cases hold
      exact ⟨not_le.mp hstale, not_not.mp hunit⟩

theorem getD_eq_of_refuseIf {α ε : Type} [DecidableEq α] {o : Option α} {a : α} {e : ε} {u : PUnit}
    (h : refuseIf (o.getD a ≠ a) e = .ok u) : some (o.getD a) = some a := by
  rw [refuseIf_eq_ok, not_not] at h
  rw [h]

namespace Deployment
variable [Crypto]

/-- What the command publishes is published. -/
def Holds (t : Deployment) : OperatorCommand → Prop
  | .publishServiceOffer offer => t.offers.get? offer.version = some offer
  | .publishRequestPricing policy => t.pricing.versions.get? policy.version = some policy
  | .publishProtocolPolicy policy => t.protocol.versions.get? policy.version = some policy

/-- Every version is under its number, and the newest is current. -/
structure Ordered (t : Deployment) : Prop where
  pricing : t.pricing.Ordered RequestPricingPolicy.version
  protocol : t.protocol.Ordered ProtocolPolicy.version

/-- Nothing published is replaced, no pointer moves back, and the unit of prices stays. -/
structure Follows (t t' : Deployment) : Prop where
  offers : ∀ v o, t.offers.get? v = some o → t'.offers.get? v = some o
  pricing : t.pricing.Follows t'.pricing
  protocol : t.protocol.Follows t'.protocol
  unit : ∀ p, t.pricing.latest = some p → ∃ p', t'.pricing.latest = some p' ∧ p'.unit = p.unit

theorem follows_refl (t : Deployment) : t.Follows t :=
  ⟨fun _ _ h => h, Publications.follows_refl _, Publications.follows_refl _, fun p h => ⟨p, h, rfl⟩⟩

/-- What publishing a command does. -/
structure Published (t : Deployment) (command : OperatorCommand) (t' : Deployment) (outcome : OperatorOutcome) : Prop where
  unchanged : outcome.changed = false → t' = t
  fresh : outcome.changed = true → ¬t.Holds command
  holds : ∀ c, t'.Holds c ↔ t.Holds c ∨ c = command
  follows : t.Follows t'
  ordered : t'.Ordered
  others : t' = {t with
    offers := t'.offers
    pricing := t'.pricing
    protocol := t'.protocol}

theorem Published.of_same {t : Deployment} {command : OperatorCommand} {outcome : OperatorOutcome} (ht : t.Ordered)
    (hchanged : outcome.changed = false) (hholds : t.Holds command) : t.Published command t outcome where
  unchanged := fun _ => rfl
  fresh := fun h => absurd (hchanged.symm.trans h) Bool.false_ne_true
  holds := fun _ => ⟨.inl, fun h => h.elim id fun hc => hc ▸ hholds⟩
  follows := follows_refl t
  ordered := ht
  others := rfl

/-- What is published then was, or is what the command changed. -/
theorem Published.holds_iff {t t' : Deployment} {command : OperatorCommand} {outcome : OperatorOutcome}
    (h : t.Published command t' outcome) (c : OperatorCommand) :
    t'.Holds c ↔ t.Holds c ∨ (c = command ∧ outcome.changed = true) := by
  constructor
  · intro hholds
    rcases (h.holds c).mp hholds with hold | rfl
    · exact .inl hold
    · cases hchanged : outcome.changed with
      | true => exact .inr ⟨rfl, rfl⟩
      | false => exact .inl (h.unchanged hchanged ▸ hholds)
  · intro hholds
    obtain hold | ⟨hc, -⟩ := hholds
    · exact (h.holds c).mpr (.inl hold)
    · exact (h.holds c).mpr (.inr hc)

theorem publishServiceOffer_published {t t' : Deployment} {offer : ServiceOffer} {now : CanonicalTime}
    {outcome : OperatorOutcome} (ht : t.Ordered) (h : t.publish (.publishServiceOffer offer) now = .ok (t', outcome)) :
    t.Published (.publishServiceOffer offer) t' outcome := by
  obtain ⟨changed, hdecide, h⟩ := bind_eq_ok.mp h
  rw [mapError_eq_ok] at hdecide
  cases h
  cases hold : t.offers.get? offer.version with
  | some existing =>
    rw [hold, decideServiceOffer] at hdecide
    split_ifs at hdecide with hsame
    cases hdecide
    exact .of_same ht rfl (hsame ▸ hold)
  | none =>
    rw [hold] at hdecide
    cases hdecide
    refine ⟨nofun, fun _ hholds => ?_, fun c => ?_, ⟨fun v o ho => ?_, Publications.follows_refl _,
      Publications.follows_refl _, fun p h => ⟨p, h, rfl⟩⟩,
      ⟨ht.pricing, ht.protocol⟩, rfl⟩
    · exact absurd (hold.symm.trans hholds) nofun
    · cases c with
      | publishServiceOffer o =>
        rw [Holds, if_pos rfl, OperatorCommand.publishServiceOffer.injEq]
        exact SortedMap.get?_insert_filed hold
      | publishRequestPricing p => exact ⟨.inl, fun h => h.elim id nofun⟩
      | publishProtocolPolicy p => exact ⟨.inl, fun h => h.elim id nofun⟩
    · refine (SortedMap.get?_insert_ne _ _ fun hv => ?_).trans ho
      rw [hv, hold] at ho
      cases ho

theorem publishRequestPricing_published {t t' : Deployment} {policy : RequestPricingPolicy} {now : CanonicalTime}
    {outcome : OperatorOutcome} (ht : t.Ordered) (h : t.publish (.publishRequestPricing policy) now = .ok (t', outcome)) :
    t.Published (.publishRequestPricing policy) t' outcome := by
  obtain ⟨changed, hdecide, h⟩ := bind_eq_ok.mp h
  rw [mapError_eq_ok] at hdecide
  rcases decidePolicy_eq_ok hdecide with ⟨rfl, hcurrent⟩ | ⟨rfl, hnewer⟩
  · cases h
    exact .of_same ht rfl ((Publications.latest_eq_some ht.pricing).mp hcurrent).2
  · obtain ⟨_, _, h⟩ := bind_eq_ok.mp h
    cases h
    have hversions : ∀ old, t.pricing.latest = some old → old.version < policy.version := fun old hold => (hnewer old hold).1
    have hfree := Publications.unused_of_newer ht.pricing hversions
    have hfollows := Publications.record_follows ht.pricing hversions
    have hordered := Publications.record_ordered ht.pricing hversions
    refine ⟨nofun, fun _ hholds => ?_, fun c => ?_, ⟨fun _ _ h => h, hfollows, Publications.follows_refl _,
      fun p hp => ⟨policy, Publications.latest_record .., (hnewer p hp).2⟩⟩, ⟨hordered, ht.protocol⟩, rfl⟩
    · exact absurd (hfree.symm.trans hholds) nofun
    · cases c with
      | publishRequestPricing p =>
        rw [OperatorCommand.publishRequestPricing.injEq]
        exact SortedMap.get?_insert_filed hfree
      | publishServiceOffer o => exact ⟨.inl, fun h => h.elim id nofun⟩
      | publishProtocolPolicy p => exact ⟨.inl, fun h => h.elim id nofun⟩

theorem publishProtocolPolicy_published {t t' : Deployment} {policy : ProtocolPolicy} {now : CanonicalTime}
    {outcome : OperatorOutcome} (ht : t.Ordered) (h : t.publish (.publishProtocolPolicy policy) now = .ok (t', outcome)) :
    t.Published (.publishProtocolPolicy policy) t' outcome := by
  obtain ⟨changed, hdecide, h⟩ := bind_eq_ok.mp h
  rw [mapError_eq_ok] at hdecide
  rcases decideProtocolPolicy_eq_ok hdecide with ⟨rfl, hcurrent⟩ | ⟨rfl, hnewer⟩
  · cases h
    exact .of_same ht rfl ((Publications.latest_eq_some ht.protocol).mp hcurrent).2
  · obtain ⟨_, _, h⟩ := bind_eq_ok.mp h
    cases h
    have hfree := Publications.unused_of_newer ht.protocol hnewer
    refine ⟨nofun, fun _ hholds => ?_, fun c => ?_, ⟨fun _ _ h => h, Publications.follows_refl _,
      Publications.record_follows ht.protocol hnewer, fun p h => ⟨p, h, rfl⟩⟩,
      ⟨ht.pricing, Publications.record_ordered ht.protocol hnewer⟩, rfl⟩
    · exact absurd (hfree.symm.trans hholds) nofun
    · cases c with
      | publishProtocolPolicy p =>
        rw [OperatorCommand.publishProtocolPolicy.injEq]
        exact SortedMap.get?_insert_filed hfree
      | publishServiceOffer o => exact ⟨.inl, fun h => h.elim id nofun⟩
      | publishRequestPricing p => exact ⟨.inl, fun h => h.elim id nofun⟩

theorem publish_published {t t' : Deployment} {command : OperatorCommand} {now : CanonicalTime} {outcome : OperatorOutcome}
    (ht : t.Ordered) (h : t.publish command now = .ok (t', outcome)) : t.Published command t' outcome := by
  cases command with
  | publishServiceOffer offer => exact publishServiceOffer_published ht h
  | publishRequestPricing policy => exact publishRequestPricing_published ht h
  | publishProtocolPolicy policy => exact publishProtocolPolicy_published ht h

/-! ### Commands -/

/-- What the deployment was bootstrapped as verifies the command. -/
def Verifies {C : Type} [CommandFamily C] (t : Deployment) (signed : SignedOperatorCommand C)
    (verified : VerifiedOperatorCommand C) : Prop :=
  ∃ b, t.record = some b ∧ b.operatorAuthority.verify signed = .ok verified

theorem verify_fields {C : Type} [CommandFamily C] {a : OperatorAuthority} {signed : SignedOperatorCommand C}
    {verified : VerifiedOperatorCommand C} (h : a.verify signed = .ok verified) :
    signed.deploymentDomain = a.deploymentDomain ∧ verified.operator = signed.operator ∧
      verified.idempotencyKey = signed.idempotencyKey ∧ verified.command = signed.command := by
  simp only [OperatorAuthority.verify, bind_eq_ok, refuseIf_eq_ok, not_not] at h
  obtain ⟨_, hdomain, _, _, _, _, _, _, _, _, _, _, h⟩ := h
  cases h
  exact ⟨hdomain, rfl, rfl, rfl⟩

theorem authority_eq_ok {t : Deployment} {a : OperatorAuthority} (h : t.authority = .ok a) :
    ∃ b, t.record = some b ∧ a = b.operatorAuthority := by
  obtain ⟨b, hb, rfl⟩ := map_eq_ok.mp h
  exact ⟨b, okOr_eq_ok.mp hb, rfl⟩

/-- A command is executed under an identity that is new, or it is the one that was. -/
theorem execute_cases [OperatorJson] {t t' : Deployment} {signed : SignedOperatorCommand OperatorCommand}
    {now : CanonicalTime} {outcome : OperatorOutcome} (h : t.execute signed now = .ok (t', outcome)) :
    ∃ verified, t.Verifies signed verified ∧ checkTarget signed.command = .ok () ∧
      ((∃ r, t.configuration.get? signed.idempotencyKey = some r ∧ r.digest = verified.digest ∧ r.outcome = outcome ∧
          t' = t) ∨
        (t.configuration.get? signed.idempotencyKey = none ∧ ∃ next, t.publish signed.command now = .ok (next, outcome) ∧
          ∃ authorizedAt, t' = {next with
            configuration := next.configuration.insert signed.idempotencyKey
              ⟨signed.operator, verified.digest, signed.command, outcome, authorizedAt⟩})) := by
  obtain ⟨authority, hauthority, h⟩ := bind_eq_ok.mp h
  obtain ⟨_, htarget, h⟩ := bind_eq_ok.mp h
  obtain ⟨verified, hverified, h⟩ := bind_eq_ok.mp h
  obtain ⟨replayed, hreplayed, h⟩ := bind_eq_ok.mp h
  rw [mapError_eq_ok] at hverified hreplayed
  obtain ⟨b, hb, rfl⟩ := authority_eq_ok hauthority
  obtain ⟨-, hoperator, -, hcommand⟩ := verify_fields hverified
  refine ⟨verified, ⟨b, hb, hverified⟩, htarget, ?_⟩
  cases hprior : t.configuration.get? signed.idempotencyKey with
  | none =>
    rw [hprior, Option.map_none, replay] at hreplayed
    cases hreplayed
    obtain ⟨⟨next, outcome'⟩, hpublish, h⟩ := bind_eq_ok.mp h
    obtain ⟨authorizedAt, _, h⟩ := bind_eq_ok.mp h
    cases h
    rw [hcommand] at hpublish
    rw [hoperator, hcommand]
    exact .inr ⟨rfl, next, hpublish, authorizedAt, rfl⟩
  | some r =>
    rw [hprior, Option.map_some, replay] at hreplayed
    split_ifs at hreplayed with hdigest
    cases hreplayed
    cases h
    exact .inl ⟨r, rfl, hdigest, rfl, rfl⟩

/-- A command that is recognized changes nothing. -/
theorem execute_again [OperatorJson] {t : Deployment} {signed : SignedOperatorCommand OperatorCommand}
    {verified : VerifiedOperatorCommand OperatorCommand} (hverified : t.Verifies signed verified)
    (htarget : checkTarget signed.command = .ok ()) {r : OperatorRecord OperatorCommand OperatorOutcome}
    (hr : t.configuration.get? signed.idempotencyKey = some r) (hdigest : r.digest = verified.digest)
    (now : CanonicalTime) : t.execute signed now = .ok (t, r.outcome) := by
  obtain ⟨b, hb, hverify⟩ := hverified
  rw [execute, authority, hb, htarget]
  simp only [okOr, Except.map, ok_bind, hverify, Except.mapError, hr, Option.map_some, replay, hdigest, if_true]

/-! ### All transactions -/

/-- What bootstrap installs. -/
def installed (t : Deployment) (b : DeploymentBootstrap) : Deployment :=
  {t with
    record := some b
    arrangement := some ⟨b.record.financialScope, b.record.unit, b.record.payment⟩
    identity := some b.record.identity}

inductive Moved [OperatorJson] (t : Deployment) : Deployment → Prop
  | same : Moved t t
  | bootstrapped (b : DeploymentBootstrap) (hnone : t.record = none) : Moved t (t.installed b)
  | executed (signed : SignedOperatorCommand OperatorCommand)
      (verified : VerifiedOperatorCommand OperatorCommand) (hverified : t.Verifies signed verified)
      (hnew : t.configuration.get? signed.idempotencyKey = none) (now : CanonicalTime) (next : Deployment)
      (outcome : OperatorOutcome) (hpublish : t.publish signed.command now = .ok (next, outcome)) (authorizedAt : BigInt) :
      Moved t {next with
        configuration := next.configuration.insert signed.idempotencyKey
          ⟨signed.operator, verified.digest, signed.command, outcome, authorizedAt⟩}
  | processed (received : SortedMap BigInt ProcessingTarget)
      (processing : SortedMap IdempotencyKey (OperatorRecord ProcessingCommand ProcessingResponse))
      (hkept : ∀ k r, t.processing.get? k = some r → processing.get? k = some r) :
      Moved t {t with received, processing}
  | classes (classes : RecipientRequestClasses) (policy : RequestPricingPolicy) (hlatest : t.pricing.latest = some policy)
      (hpermits : policy.permits classes = true) : Moved t {t with classes := t.classes.insert classes.address classes}

theorem bootstrap_cases [DecisionKeys] {t t' : Deployment} {b : DeploymentBootstrap} {now : CanonicalTime}
    {outcome : BootstrapOutcome} (h : t.bootstrap b now = .ok (t', outcome)) :
    (t.record = some b ∧ outcome = .alreadyBootstrapped ∧ t' = t) ∨
      (t.record = none ∧ outcome = .created ∧ t' = t.installed b) := by
  obtain ⟨_, _, h⟩ := bind_eq_ok.mp h
  obtain ⟨outcome', houtcome, h⟩ := bind_eq_ok.mp h
  rw [mapError_eq_ok] at houtcome
  cases hrecord : t.record with
  | some existing =>
    rw [hrecord, DeploymentBootstrap.reconcile] at houtcome
    split_ifs at houtcome with hsame
    cases houtcome
    cases h
    exact .inl ⟨congrArg some hsame, rfl, rfl⟩
  | none =>
    rw [hrecord, DeploymentBootstrap.reconcile] at houtcome
    cases houtcome
    obtain ⟨_, _, h⟩ := bind_eq_ok.mp h
    obtain ⟨arranged, harranged, h⟩ := bind_eq_ok.mp h
    obtain ⟨trusted, htrusted, h⟩ := bind_eq_ok.mp h
    obtain ⟨_, _, harranged⟩ := bind_eq_ok.mp harranged
    obtain ⟨_, harrangement, harranged⟩ := bind_eq_ok.mp harranged
    obtain ⟨_, _, htrusted⟩ := bind_eq_ok.mp htrusted
    obtain ⟨_, hidentity, htrusted⟩ := bind_eq_ok.mp htrusted
    cases harranged
    cases htrusted
    cases h
    rw [getD_eq_of_refuseIf harrangement, getD_eq_of_refuseIf hidentity]
    exact .inr ⟨rfl, rfl, rfl⟩

theorem manageProcessing_moved [OperatorJson] {t t' : Deployment} {signed : SignedOperatorCommand ProcessingCommand}
    {now : CanonicalTime} {response : ProcessingResponse} (h : t.manageProcessing signed now = .ok (t', response)) :
    Moved t t' := by
  obtain ⟨authority, _, h⟩ := bind_eq_ok.mp h
  obtain ⟨verified, _, h⟩ := bind_eq_ok.mp h
  cases hcommand : signed.command with
  | inspect limit =>
    rw [hcommand] at h
    obtain ⟨_, _, h⟩ := bind_eq_ok.mp h
    obtain ⟨_, _, h⟩ := bind_eq_ok.mp h
    cases h
    exact .same
  | resume position digest =>
    rw [hcommand] at h
    obtain ⟨stored, _, h⟩ := bind_eq_ok.mp h
    obtain ⟨target, _, h⟩ := bind_eq_ok.mp h
    obtain ⟨replayed, hreplayed, h⟩ := bind_eq_ok.mp h
    rw [mapError_eq_ok] at hreplayed
    cases hprior : t.processing.get? signed.idempotencyKey with
    | some r =>
      rw [hprior, Option.map_some, replay] at hreplayed
      split_ifs at hreplayed with hdigest
      cases hreplayed
      cases h
      exact .same
    | none =>
      rw [hprior, Option.map_none, replay] at hreplayed
      cases hreplayed
      obtain ⟨_, _, h⟩ := bind_eq_ok.mp h
      obtain ⟨_, _, h⟩ := bind_eq_ok.mp h
      cases h
      refine .processed _ _ fun k r hr => (SortedMap.get?_insert_ne _ _ fun hk => ?_).trans hr
      rw [hk, hprior] at hr
      cases hr

theorem decideClasses_permits [ClassesJson] {signed : SignedRequestClasses} {expected : RecipientSigningScope}
    {authority : AuthoritySnapshot} {policy : Option RequestPricingPolicy} {current : Option RecipientRequestClasses}
    {now : CanonicalTime} {changed : Bool}
    (h : decideClasses signed expected authority policy current now = .ok changed) :
    ∃ p, policy = some p ∧ p.permits signed.classes = true := by
  simp only [decideClasses, bind_eq_ok, okOr_eq_ok, refuseIf_eq_ok, Bool.not_eq_false] at h
  obtain ⟨_, _, _, _, _, _, p, hp, _, hpermits, _⟩ := h
  exact ⟨p, hp, hpermits⟩

theorem publishClasses_moved [OperatorJson] [ClassesJson] {t t' : Deployment} {signed : SignedRequestClasses}
    {expected : RecipientSigningScope} {authority : AuthoritySnapshot} {bonded : Bool} {now : CanonicalTime}
    (h : t.publishClasses signed expected authority bonded now = .ok t') : Moved t t' := by
  obtain ⟨_, _, h⟩ := bind_eq_ok.mp h
  obtain ⟨changed, hchanged, h⟩ := bind_eq_ok.mp h
  obtain ⟨policy, hpolicy, hpermits⟩ := decideClasses_permits hchanged
  split_ifs at h
  · obtain ⟨_, _, h⟩ := bind_eq_ok.mp h
    obtain ⟨_, _, h⟩ := bind_eq_ok.mp h
    cases h
    exact .classes signed.classes policy hpolicy hpermits
  · cases h
    exact .same

theorem call_moved [DecisionKeys] [OperatorJson] [ClassesJson] {t t' : Deployment} {c : Call} (h : call t c = .ok t') :
    Moved t t' := by
  cases c with
  | bootstrap b now =>
    obtain ⟨⟨_, outcome⟩, hout, rfl⟩ := map_eq_ok.mp h
    rcases bootstrap_cases hout with ⟨-, -, rfl⟩ | ⟨hnone, -, rfl⟩
    · exact .same
    · exact .bootstrapped b hnone
  | execute signed now =>
    obtain ⟨⟨_, outcome⟩, hout, rfl⟩ := map_eq_ok.mp h
    obtain ⟨verified, hverified, -, ⟨_, _, _, _, rfl⟩ | ⟨hnew, next, hpublish, authorizedAt, rfl⟩⟩ := execute_cases hout
    · exact .same
    · exact .executed signed verified hverified hnew now next outcome hpublish authorizedAt
  | manageProcessing signed now =>
    obtain ⟨⟨_, response⟩, hout, rfl⟩ := map_eq_ok.mp h
    exact manageProcessing_moved hout
  | publishClasses signed expected authority bonded now => exact publishClasses_moved h
  | process received =>
    cases h
    exact .processed received t.processing fun _ _ h => h

end Deployment

end CsMail.Operations
