import CsMail.Library.Machine
import CsMail.Operations.Steps

/-! What holds of the deployment in every state its transactions lead to.

It is bootstrapped once; every published version is there by one signed command, whose record stays; and the
policy that is current can always be applied. -/
namespace CsMail.Operations
open Library
open Ingress (OperationsError ProcessingTarget ProcessingStatus)

/-- The command was executed, and published what it says. -/
def OperatorRecord.Publishes (r : OperatorRecord OperatorCommand OperatorOutcome) (c : OperatorCommand) : Prop :=
  r.command = c ∧ r.outcome.changed = true

namespace Deployment
variable [Crypto]

/-- A command under this identity was signed by an operator of the deployment. -/
def Signed [OperatorJson] (t : Deployment) (key : IdempotencyKey) (r : OperatorRecord OperatorCommand OperatorOutcome) :
    Prop :=
  ∃ b signature, t.record = some b ∧
    b.operatorAuthority.verify (⟨b.record.deploymentDomain, r.operator, key, r.command, signature⟩ :
      SignedOperatorCommand OperatorCommand) = .ok ⟨r.operator, key, r.digest, r.command⟩

structure Sound [OperatorJson] (t : Deployment) : Prop where
  ordered : t.Ordered
  arrangement : t.arrangement = t.record.map fun b => ⟨b.record.financialScope, b.record.unit, b.record.payment⟩
  identity : t.identity = t.record.map fun b => b.record.identity
  signed : ∀ key r, t.configuration.get? key = some r → t.Signed key r
  audited : ∀ c, t.Holds c ↔ ∃ key r, t.configuration.get? key = some r ∧ r.Publishes c
  once : ∀ c key key' r r', t.configuration.get? key = some r → t.configuration.get? key' = some r' → r.Publishes c →
    r'.Publishes c → key = key'

theorem empty_holds (c : OperatorCommand) : ¬(empty : Deployment).Holds c := by
  intro h
  cases c with
  | publishServiceOffer offer => exact Option.some_ne_none _ (h.symm.trans (SortedMap.get?_empty offer.version))
  | publishRequestPricing policy => exact Option.some_ne_none _ (h.symm.trans (SortedMap.get?_empty policy.version))
  | publishProtocolPolicy policy => exact Option.some_ne_none _ (h.symm.trans (SortedMap.get?_empty policy.version))

theorem empty_configuration {key : IdempotencyKey} {r : OperatorRecord OperatorCommand OperatorOutcome} :
    (empty : Deployment).configuration.get? key ≠ some r := fun h =>
  Option.some_ne_none _ (h.symm.trans (SortedMap.get?_empty key))

theorem empty_sound [OperatorJson] : (empty : Deployment).Sound where
  ordered := ⟨Publications.empty_ordered, Publications.empty_ordered⟩
  arrangement := rfl
  identity := rfl
  signed := fun _ _ h => (empty_configuration h).elim
  audited := fun c => ⟨fun h => (empty_holds c h).elim, fun ⟨_, _, h, _⟩ => (empty_configuration h).elim⟩
  once := fun _ _ _ _ _ h => (empty_configuration h).elim

/-- What is never taken back. -/
structure Kept (t t' : Deployment) : Prop where
  record : ∀ b, t.record = some b → t'.record = some b
  configuration : ∀ key r, t.configuration.get? key = some r → t'.configuration.get? key = some r
  processing : ∀ key r, t.processing.get? key = some r → t'.processing.get? key = some r
  published : t.Follows t'

theorem Follows.trans {a b c : Deployment} (h : a.Follows b) (h' : b.Follows c) : a.Follows c := by
  refine ⟨fun v o ho => h'.offers v o (h.offers v o ho), h.pricing.trans h'.pricing, h.protocol.trans h'.protocol,
    fun p hp => ?_⟩
  obtain ⟨q, hq, hunit⟩ := h.unit p hp
  obtain ⟨r, hr, hunit'⟩ := h'.unit q hq
  exact ⟨r, hr, hunit'.trans hunit⟩

theorem Kept.trans {a b c : Deployment} (h : a.Kept b) (h' : b.Kept c) : a.Kept c :=
  ⟨fun d hd => h'.record d (h.record d hd), fun key r hr => h'.configuration key r (h.configuration key r hr),
    fun key r hr => h'.processing key r (h.processing key r hr), h.published.trans h'.published⟩

theorem kept_refl (t : Deployment) : t.Kept t := ⟨fun _ h => h, fun _ _ h => h, fun _ _ h => h, follows_refl t⟩

theorem Moved.kept [OperatorJson] {t t' : Deployment} (ht : t.Ordered) (h : Moved t t') : t.Kept t' := by
  have hunit : ∀ p, t.pricing.latest = some p → ∃ p', t.pricing.latest = some p' ∧ p'.unit = p.unit :=
    fun p h => ⟨p, h, rfl⟩
  cases h with
  | same => exact kept_refl t
  | bootstrapped b hnone =>
    refine ⟨fun d hd => ?_, fun _ _ h => h, fun _ _ h => h,
      ⟨fun _ _ h => h, Publications.follows_refl _, Publications.follows_refl _, hunit⟩⟩
    rw [hnone] at hd
    cases hd
  | executed signed verified hverified hnew now next outcome hpublish authorizedAt =>
    have hpublished := publish_published ht hpublish
    have hothers := hpublished.others
    refine ⟨fun d hd => ?_, fun key r hr => ?_, fun key r hr => ?_, ?_⟩
    · rw [hothers]
      exact hd
    · have hkept : next.configuration = t.configuration := by rw [hothers]
      refine (SortedMap.get?_insert_ne _ _ fun hk => ?_).trans (hkept ▸ hr)
      rw [hk, hnew] at hr
      cases hr
    · rw [hothers]
      exact hr
    · exact ⟨hpublished.follows.offers, hpublished.follows.pricing, hpublished.follows.protocol,
        hpublished.follows.unit⟩
  | processed received processing hkept =>
    exact ⟨fun _ h => h, fun _ _ h => h, hkept,
      ⟨fun _ _ h => h, Publications.follows_refl _, Publications.follows_refl _, hunit⟩⟩
  | classes classes policy hlatest hpermits =>
    exact ⟨fun _ h => h, fun _ _ h => h, fun _ _ h => h,
      ⟨fun _ _ h => h, Publications.follows_refl _, Publications.follows_refl _, hunit⟩⟩

/-! ### The invariant -/

section Sound
variable [OperatorJson]

theorem Sound.bootstrapped {t : Deployment} (hs : t.Sound) (b : DeploymentBootstrap) (hnone : t.record = none) :
    (t.installed b).Sound where
  ordered := ⟨hs.ordered.pricing, hs.ordered.protocol⟩
  arrangement := rfl
  identity := rfl
  signed := fun key r hr => by
    -- nobody could sign before
    obtain ⟨d, _, hd, _⟩ := hs.signed key r hr
    rw [hnone] at hd
    cases hd
  audited := fun c => by
    have hsame : (t.installed b).Holds c ↔ t.Holds c := by cases c <;> exact Iff.rfl
    exact hsame.trans (hs.audited c)
  once := hs.once

theorem Sound.executed {t : Deployment} (hs : t.Sound) {signed : SignedOperatorCommand OperatorCommand}
    {verified : VerifiedOperatorCommand OperatorCommand} (hverified : t.Verifies signed verified)
    (hnew : t.configuration.get? signed.idempotencyKey = none) {now : CanonicalTime} {next : Deployment}
    {outcome : OperatorOutcome} (hpublish : t.publish signed.command now = .ok (next, outcome)) (authorizedAt : BigInt) :
    ({next with
      configuration := next.configuration.insert signed.idempotencyKey
        ⟨signed.operator, verified.digest, signed.command, outcome, authorizedAt⟩} : Deployment).Sound := by
  have hpublished := publish_published hs.ordered hpublish
  have hconfiguration : next.configuration = t.configuration := by rw [hpublished.others]
  have hrecord : next.record = t.record := by rw [hpublished.others]
  constructor
  · exact ⟨hpublished.ordered.pricing, hpublished.ordered.protocol⟩
  · rw [hpublished.others]
    exact hs.arrangement
  · rw [hpublished.others]
    exact hs.identity
  · intro key r hr
    obtain ⟨b, hb, hverify⟩ := hverified
    rw [hconfiguration] at hr
    rcases SortedMap.get?_insert_eq_some.mp hr with ⟨rfl, rfl⟩ | ⟨-, hold⟩
    · refine ⟨b, signed.signature, hrecord.trans hb, ?_⟩
      obtain ⟨hdomain, hoperator, hkey, hcommand⟩ := verify_fields hverify
      cases signed
      cases verified
      cases hdomain
      cases hoperator
      cases hkey
      cases hcommand
      exact hverify
    · obtain ⟨d, signature, hd, hsigned⟩ := hs.signed key r hold
      exact ⟨d, signature, hrecord.trans hd, hsigned⟩
  · intro c
    have hsame : ({next with
      configuration := next.configuration.insert signed.idempotencyKey
        ⟨signed.operator, verified.digest, signed.command, outcome, authorizedAt⟩} : Deployment).Holds c ↔ next.Holds c := by
      cases c <;> exact Iff.rfl
    rw [hsame, hpublished.holds_iff c]
    dsimp only
    rw [hconfiguration]
    constructor
    · intro h
      obtain h | ⟨rfl, hchanged⟩ := h
      · obtain ⟨key, r, hr, hpub⟩ := (hs.audited c).mp h
        refine ⟨key, r, (SortedMap.get?_insert_ne _ _ fun hk => ?_).trans hr, hpub⟩
        rw [hk, hnew] at hr
        cases hr
      · exact ⟨signed.idempotencyKey, _, SortedMap.get?_insert_self .., rfl, hchanged⟩
    · intro ⟨key, r, hr, hpub⟩
      rcases SortedMap.get?_insert_eq_some.mp hr with ⟨-, rfl⟩ | ⟨-, hold⟩
      · exact .inr ⟨hpub.1.symm, hpub.2⟩
      · exact .inl ((hs.audited c).mpr ⟨key, r, hold, hpub⟩)
  · intro c key key' r r' hr hr' hpub hpub'
    dsimp only at hr hr'
    rw [hconfiguration] at hr hr'
    -- what the new command publishes was not published
    have hfresh {q : IdempotencyKey} {old : OperatorRecord OperatorCommand OperatorOutcome}
        (hold : t.configuration.get? q = some old) (holds : old.Publishes c) (hcommand : signed.command = c)
        (hchanged : outcome.changed = true) : False :=
      hpublished.fresh hchanged (hcommand ▸ (hs.audited c).mpr ⟨q, old, hold, holds⟩)
    rcases SortedMap.get?_insert_eq_some.mp hr with ⟨hk, rfl⟩ | ⟨-, hold⟩
    · rcases SortedMap.get?_insert_eq_some.mp hr' with ⟨hk', -⟩ | ⟨-, hold'⟩
      · exact hk.trans hk'.symm
      · exact (hfresh hold' hpub' hpub.1 hpub.2).elim
    · rcases SortedMap.get?_insert_eq_some.mp hr' with ⟨-, rfl⟩ | ⟨-, hold'⟩
      · exact (hfresh hold hpub hpub'.1 hpub'.2).elim
      · exact hs.once c key key' r r' hold hold' hpub hpub'

theorem Sound.moved {t t' : Deployment} (hs : t.Sound) (h : Moved t t') : t'.Sound := by
  cases h with
  | same => exact hs
  | bootstrapped b hnone => exact hs.bootstrapped b hnone
  | executed signed verified hverified hnew now next outcome hpublish authorizedAt =>
    exact hs.executed hverified hnew hpublish authorizedAt
  | processed received processing hkept =>
    refine ⟨⟨hs.ordered.pricing, hs.ordered.protocol⟩, hs.arrangement, hs.identity, hs.signed, fun c => ?_, hs.once⟩
    exact Iff.trans (by cases c <;> exact Iff.rfl) (hs.audited c)
  | classes classes policy hlatest hpermits =>
    refine ⟨⟨hs.ordered.pricing, hs.ordered.protocol⟩, hs.arrangement, hs.identity, hs.signed, fun c => ?_, hs.once⟩
    exact Iff.trans (by cases c <;> exact Iff.rfl) (hs.audited c)

end Sound

end Deployment

/-! ### Runs -/

section Runs
variable [Crypto] [DecisionKeys] [OperatorJson] [ClassesJson]

theorem run_sound (calls : List Call) : (Machine.run call Deployment.empty calls).Sound :=
  Machine.run_preserves (fun _ _ _ hs h => hs.moved (Deployment.call_moved h)) Deployment.empty_sound calls

theorem run_kept (before after : List Call) :
    (Machine.run call Deployment.empty before).Kept (Machine.run call Deployment.empty (before ++ after)) := by
  rw [Machine.run_append]
  refine Machine.run_relates (P := Deployment.Sound) Deployment.kept_refl (fun _ _ _ => Deployment.Kept.trans)
    (fun t c t' hs h => ?_) (run_sound before) after
  have hmoved := Deployment.call_moved h
  exact ⟨hs.moved hmoved, hmoved.kept hs.ordered⟩

/-- What is published was published by exactly one command, which an operator of the deployment signed. -/
theorem publications_audited (calls : List Call) (c : OperatorCommand) :
    let t := Machine.run call Deployment.empty calls
    t.Holds c ↔ ∃! key, ∃ r, t.configuration.get? key = some r ∧ r.Publishes c ∧ t.Signed key r := by
  intro t
  have hs : t.Sound := run_sound calls
  constructor
  · intro h
    obtain ⟨key, r, hr, hpub⟩ := (hs.audited c).mp h
    refine ⟨key, ⟨r, hr, hpub, hs.signed key r hr⟩, fun key' hkey' => ?_⟩
    obtain ⟨r', hr', hpub', _⟩ := hkey'
    exact hs.once c key' key r' r hr' hr hpub' hpub
  · intro ⟨key, ⟨r, hr, hpub, _⟩, _⟩
    exact (hs.audited c).mpr ⟨key, r, hr, hpub⟩

/-- A command that was executed is never executed again: a retry returns the recorded outcome at any later time,
and nothing else is executed under its identity. -/
theorem commands_once {before : List Call} {signed : SignedOperatorCommand OperatorCommand} {now : CanonicalTime}
    {out : Deployment × OperatorOutcome} (h : (Machine.run call Deployment.empty before).execute signed now = .ok out)
    (after : List Call) (later : CanonicalTime) :
    let t := Machine.run call out.1 after
    t.execute signed later = .ok (t, out.2) ∧
      ∀ other out', other.idempotencyKey = signed.idempotencyKey → t.execute other later = .ok out' →
        out' = (t, out.2) := by
  intro t
  obtain ⟨u, outcome⟩ := out
  have hstep : call (Machine.run call Deployment.empty before) (.execute signed now) = .ok u := map_eq_ok.mpr ⟨_, h, rfl⟩
  have hu : Machine.run call Deployment.empty (before ++ [.execute signed now]) = u := by
    rw [Machine.run_append, Machine.run_cons, Machine.advance_of_ok hstep, Machine.run_nil]
  have hkept : u.Kept t := by
    have hall := run_kept (before ++ [.execute signed now]) after
    rwa [Machine.run_append _ (before ++ [Call.execute signed now]) after, hu] at hall
  obtain ⟨verified, ⟨b, hb, hverify⟩, htarget, hcases⟩ := Deployment.execute_cases h
  -- either way its record is there
  have hrecord : u.record = some b ∧ ∃ r, u.configuration.get? signed.idempotencyKey = some r ∧
      r.digest = verified.digest ∧ r.outcome = outcome := by
    rcases hcases with ⟨r, hr, hdigest, houtcome, rfl⟩ | ⟨-, next, hpublish, authorizedAt, rfl⟩
    · exact ⟨hb, r, hr, hdigest, houtcome⟩
    · have hothers := (Deployment.publish_published (run_sound before).ordered hpublish).others
      refine ⟨?_, _, SortedMap.get?_insert_self .., rfl, rfl⟩
      rw [hothers]
      exact hb
  obtain ⟨hub, r, hr, hdigest, rfl⟩ := hrecord
  have htr := hkept.configuration _ r hr
  refine ⟨Deployment.execute_again ⟨b, hkept.record b hub, hverify⟩ htarget htr hdigest later,
    fun other out' hkey hother => ?_⟩
  obtain ⟨t', outcome'⟩ := out'
  obtain ⟨_, _, _, ⟨r', hr', _, rfl, rfl⟩ | ⟨hnone, _⟩⟩ := Deployment.execute_cases hother
  · rw [hkey, htr] at hr'
    cases hr'
    rfl
  · rw [hkey, htr] at hnone
    cases hnone

end Runs

namespace Example

local instance : Crypto := ⟨fun b => Vector.ofFn fun i => b.getD i.val 7, fun _ => true, fun _ _ _ => true⟩
local instance : DecisionKeys := ⟨fun _ => true⟩
local instance : OperatorJson := ⟨fun _ => some [1, 2], fun _ => some [3]⟩
local instance : ClassesJson := ⟨fun _ => some [4]⟩

def domain : Bytes32 := Vector.replicate 32 1
def key : Bytes32 := Vector.replicate 32 5

def bootstrap : DeploymentBootstrap where
  record := {
    provider := ⟨1⟩
    deploymentDomain := domain
    financialScope := ⟨domain, ⟨1⟩, ⟨2⟩, key, ⟨2⟩⟩
    unit := ⟨1⟩
    providerKey := ⟨⟨3⟩, key⟩
    schedulerKey := ⟨⟨4⟩, key⟩
    operators := ⟨SortedMap.empty.insert 9 key, by decide⟩
    payment := ⟨key, key⟩
    identity := ⟨"https://id".toList, "mail".toList, key⟩}
  consistent := by decide

theorem charge_pos : Money.isZero ⟨2⟩ = false := rfl

theorem collateral_pos : Money.isZero ⟨5⟩ = false := rfl

theorem collateral_ordered : Money.mk 5 ≤ Money.mk 8 := by decide

theorem total_payable : ((Money.mk 2).checkedAdd (Money.mk 8)).isSome = true := rfl

def pricing : RequestPricingPolicy where
  version := ⟨1⟩
  unit := ⟨1⟩
  processingCharge := ⟨2⟩
  collateralMin := ⟨5⟩
  collateralMax := ⟨8⟩
  published := PolicyVersion.first_ne_zero
  charged := charge_pos
  secured := collateral_pos
  ordered := collateral_ordered
  payable := total_payable

def publication : SignedOperatorCommand OperatorCommand :=
  ⟨domain, ⟨9⟩, ⟨7⟩, .publishRequestPricing pricing, List.replicate 64 0⟩

/-- The publication is retried after another bootstrap was tried. -/
theorem commands_once_example : ∃ t : Deployment,
    t.execute publication ⟨30⟩ = .ok (t, .requestPricingPublished ⟨1⟩ true 0) := by
  have h : (Machine.run call Deployment.empty [.bootstrap bootstrap ⟨10⟩]).execute publication ⟨20⟩ = .ok (_, _) := rfl
  exact ⟨_, (commands_once h [.bootstrap bootstrap ⟨25⟩] ⟨30⟩).1⟩

end Example

/-! ### Protocol policies -/

/-- Whatever an operator publishes, and whatever was bootstrapped: the policy they make is complete. -/
theorem ProtocolPolicy.snapshot_eq_ok [Crypto] (p : ProtocolPolicy) (b : DeploymentBootstrap) :
    p.snapshot b.deploymentTerms = .ok (p.assembled b.deploymentTerms) ∧
      (p.assembled b.deploymentTerms).validate = .ok () := by
  have hkey : b.record.payment.processorKey ≠ zero32 := fun h => b.consistent (by
    simp [BootstrapRecord.inconsistent, validKey, h])
  have hvalid := p.valid
  simp only [ProtocolPolicyRecord.invalid, not_or, List.any_cons, List.any_nil, Bool.or_false, Bool.or_eq_true,
    decide_eq_true_eq, Bool.not_eq_false, not_not, not_lt] at hvalid
  obtain ⟨-, ⟨-, hdecision, -⟩, -, -, hzero, horder, hshare⟩ := hvalid
  have hterms : (p.assembled b.deploymentTerms).financial.validate = .ok () := refuseIf_eq_ok.mpr (not_lt.mpr hshare)
  have hvalidate : (p.assembled b.deploymentTerms).validate = .ok () := by
    refine refuseIf_eq_ok.mpr fun h => ?_
    rcases h with h | h | h | h | h
    · exact h hterms
    · exact hkey h
    · exact hdecision h
    · exact absurd hzero (of_decide_eq_false h)
    · exact Bool.false_ne_true (h.symm.trans horder)
  refine ⟨?_, hvalidate⟩
  have hscope : refuseIf (b.deploymentTerms.financialScope.protocolVersion ≠ b.deploymentTerms.protocolVersion ∨
      b.deploymentTerms.paymentProviderKey = zero32) ProtocolError.policyInvalid = .ok ⟨⟩ :=
    refuseIf_eq_ok.mpr fun h => h.elim (fun hne => hne rfl) hkey
  rw [snapshot, hscope, ok_bind, hvalidate, ok_bind]

/-! ### Prices -/

/-- The classes of a publication that a quote refuses as outside the policy. -/
def refused (policy : RequestPricingPolicy) (classes : RecipientRequestClasses) : Bool :=
  classes.classes.any fun c => QuotePricing.resolve (some policy) (some classes) c.id = .refused .classOutsidePolicy

/-- A publication is counted as one that cannot be quoted exactly when a quote of one of its classes is refused. -/
theorem refused_eq (policy : RequestPricingPolicy) (classes : RecipientRequestClasses) :
    refused policy classes = !policy.permits classes := by
  have hresolve : ∀ c ∈ classes.classes,
      (QuotePricing.resolve (some policy) (some classes) c.id = .refused .classOutsidePolicy ↔ policy.quotable c = false) := by
    intro c hc
    -- the identifiers are distinct
    have hfind : classes.classes.find? (fun other => other.id = c.id) = some c := by
      cases hd : classes.classes.find? fun other => other.id = c.id with
      | none => exact (List.find?_eq_none.mp hd c hc (by simp)).elim
      | some d =>
        have hid : d.id = c.id := by simpa using List.find?_some hd
        rw [List.inj_on_of_nodup_map classes.distinct (List.mem_of_find?_eq_some hd) hc hid]
    rw [QuotePricing.resolve, RequestPricingPolicy.quote, hfind]
    dsimp only
    by_cases hquotable : policy.quotable c = true
    · rw [dif_pos hquotable, hquotable]
      simp
    · rw [dif_neg hquotable]
      simpa using hquotable
  rw [refused, RequestPricingPolicy.permits, List.not_all_eq_any_not]
  refine Bool.eq_iff_iff.mpr ?_
  simp only [List.any_eq_true, decide_eq_true_eq, Bool.not_eq_true']
  exact exists_congr fun c => and_congr_right fun hc => hresolve c hc

theorem unquotable_eq (policy : RequestPricingPolicy) (publications : List RecipientRequestClasses) :
    unquotable policy publications = publications.countP (refused policy) := by
  rw [unquotable, funext (refused_eq policy)]

namespace Deployment
variable [Crypto]

/-- The operator who published the current pricing policy was told of a number of addresses, and a quote is refused
for no more of them now. -/
def Reported (t : Deployment) : Prop :=
  ∀ p, t.pricing.latest = some p → ∃ key r n, t.configuration.get? key = some r ∧
    r.command = .publishRequestPricing p ∧ r.outcome = .requestPricingPublished p.version true n ∧
    t.classes.values.countP (refused p) ≤ n

/-- A pricing policy that becomes current is reported with the addresses it leaves behind. -/
theorem publish_pricing {t t' : Deployment} {command : OperatorCommand} {now : CanonicalTime} {outcome : OperatorOutcome}
    (h : t.publish command now = .ok (t', outcome)) : t'.pricing = t.pricing ∨
      ∃ policy, command = .publishRequestPricing policy ∧ t'.pricing.latest = some policy ∧
        outcome = .requestPricingPublished policy.version true (unquotable policy t.classes.values) := by
  cases command with
  | publishServiceOffer offer =>
    obtain ⟨changed, _, h⟩ := bind_eq_ok.mp h
    cases h
    split_ifs <;> exact .inl rfl
  | publishRequestPricing policy =>
    obtain ⟨changed, _, h⟩ := bind_eq_ok.mp h
    dsimp only at h
    split_ifs at h with hchanged
    · obtain ⟨_, _, h⟩ := bind_eq_ok.mp h
      cases h
      exact .inr ⟨policy, rfl, Publications.latest_record .., by rw [hchanged]⟩
    · cases h
      exact .inl rfl
  | publishProtocolPolicy policy =>
    obtain ⟨changed, _, h⟩ := bind_eq_ok.mp h
    dsimp only at h
    split_ifs at h with hchanged
    · obtain ⟨_, _, h⟩ := bind_eq_ok.mp h
      cases h
      exact .inl rfl
    · cases h
      exact .inl rfl

theorem Reported.moved [OperatorJson] {t t' : Deployment} (ht : t.Ordered) (hr : t.Reported) (h : Moved t t') :
    t'.Reported := by
  cases h with
  | same => exact hr
  | bootstrapped b hnone => exact hr
  | executed signed verified hverified hnew now next outcome hpublish authorizedAt =>
    have hothers := (publish_published ht hpublish).others
    have hclasses : next.classes = t.classes := by rw [hothers]
    have hconfiguration : next.configuration = t.configuration := by rw [hothers]
    intro p hp
    dsimp only at hp ⊢
    rw [hclasses, hconfiguration]
    rcases publish_pricing hpublish with hsame | ⟨policy, hcommand, hlatest, houtcome⟩
    · rw [hsame] at hp
      obtain ⟨key, r, n, hkey, hr⟩ := hr p hp
      refine ⟨key, r, n, (SortedMap.get?_insert_ne _ _ fun hk => ?_).trans hkey, hr⟩
      rw [hk, hnew] at hkey
      cases hkey
    · cases hlatest.symm.trans hp
      exact ⟨signed.idempotencyKey, _, _, SortedMap.get?_insert_self .., hcommand, houtcome, (unquotable_eq ..).ge⟩
  | processed received processing hkept => exact hr
  | classes classes policy hlatest hpermits =>
    intro p hp
    obtain ⟨key, r, n, hkey, hcommand, houtcome, hle⟩ := hr p hp
    refine ⟨key, r, n, hkey, hcommand, houtcome, le_trans (SortedMap.countP_values_insert_le _ _ fun hbad => ?_) hle⟩
    cases hlatest.symm.trans hp
    rw [refused_eq, hpermits] at hbad
    cases hbad

end Deployment

/-! ### Policies and prices over runs -/

section Runs
variable [Crypto] [DecisionKeys] [OperatorJson] [ClassesJson]

/-- Once an operator has published a protocol policy, the service has a complete one at any time, in the
deployment's terms; until then it has none. -/
theorem policy_available (calls : List Call) :
    let t := Machine.run call Deployment.empty calls
    (t.policy = none ↔ t.protocol.latest = none) ∧
      ∀ result, t.policy = some result → ∃ b p, t.record = some b ∧ t.protocol.latest = some p ∧
        result = .ok (p.assembled b.deploymentTerms) ∧ (p.assembled b.deploymentTerms).validate = .ok () := by
  intro t
  have hs : t.Sound := run_sound calls
  constructor
  · cases hp : t.protocol.latest with
    | none => simp [Deployment.policy, hp]
    | some p =>
      -- a policy is published by a signed command, so there is a deployment
      have hheld : t.Holds (.publishProtocolPolicy p) := ((Publications.latest_eq_some hs.ordered.protocol).mp hp).2
      obtain ⟨key, r, hr, -⟩ := (hs.audited _).mp hheld
      obtain ⟨b, _, hb, _⟩ := hs.signed key r hr
      simp [Deployment.policy, hp, hb]
  · intro result hresult
    rw [Deployment.policy] at hresult
    split at hresult
    · rename_i b p hb hp
      cases hresult
      exact ⟨b, p, hb, hp, (p.snapshot_eq_ok b).1, (p.snapshot_eq_ok b).2⟩
    · cases hresult

/-- The addresses with a class that the current pricing policy refuses are never more than the operator was told when
it was published. -/
theorem refused_reported (calls : List Call) : (Machine.run call Deployment.empty calls).Reported := by
  have hall : (Machine.run call Deployment.empty calls).Sound ∧ (Machine.run call Deployment.empty calls).Reported := by
    refine Machine.run_preserves (P := fun t : Deployment => t.Sound ∧ t.Reported) (fun t c t' ht h => ?_)
      ⟨Deployment.empty_sound, fun p hp => ?_⟩ calls
    · have hmoved := Deployment.call_moved h
      exact ⟨ht.1.moved hmoved, ht.2.moved ht.1.ordered hmoved⟩
    · cases hp
  exact hall.2

end Runs

end CsMail.Operations
