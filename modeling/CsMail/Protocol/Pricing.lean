import CsMail.Protocol.Policy

/-! The operator's pricing policy and the classes a recipient publishes.

A quote resolves one published class against the current policy. The price it gives is
payable, because the policy bounds every collateral it admits. -/
namespace CsMail
open Library

/-- The processing charge, and the bounds on every class's collateral. -/
structure RequestPricingPolicy where
  version : PolicyVersion
  unit : SettlementUnit
  processingCharge : Money
  collateralMin : Money
  collateralMax : Money
  published : version.val ≠ 0
  charged : processingCharge.isZero = false
  secured : collateralMin.isZero = false
  ordered : collateralMin ≤ collateralMax
  payable : (processingCharge.checkedAdd collateralMax).isSome = true

def RequestPricingPolicy.new (version : PolicyVersion) (unit : SettlementUnit)
    (processingCharge collateralMin collateralMax : Money) :
    Except ProtocolError RequestPricingPolicy :=
  if h : version.val ≠ 0 ∧ processingCharge.isZero = false ∧ collateralMin.isZero = false ∧
      collateralMin ≤ collateralMax ∧ (processingCharge.checkedAdd collateralMax).isSome = true then
    .ok {
      version, unit, processingCharge, collateralMin, collateralMax
      published := h.1
      charged := h.2.1
      secured := h.2.2.1
      ordered := h.2.2.2.1
      payable := h.2.2.2.2}
  else .error .policyInvalid

structure RequestClass where
  selection : SelectedRequestClass
  collateral : Money
  secured : collateral.isZero = false

namespace RequestClass

def id (c : RequestClass) : RequestClassId := c.selection.id

def new (id : RequestClassId) (description : Text) (collateral : Money) :
    Except ProtocolError RequestClass :=
  if h : collateral.isZero = false then do
    let selection ← SelectedRequestClass.new id description
    .ok ⟨selection, collateral, h⟩
  else .error .policyInvalid

end RequestClass

def maxRequestClasses : Nat := 8

/-- What one recipient publishes for one address. -/
structure RecipientRequestClasses where
  address : AliasId
  recipient : ProtocolIdentity
  version : U64
  classes : List RequestClass
  owned : recipient.val ≠ 0
  published : version ≠ 0
  bounded : classes.length ≤ maxRequestClasses
  distinct : (classes.map RequestClass.id).Nodup

def RecipientRequestClasses.new (recipient : ProtocolIdentity) (address : AliasId) (version : U64)
    (classes : List RequestClass) : Except ProtocolError RecipientRequestClasses :=
  if h : recipient.val ≠ 0 ∧ version ≠ 0 ∧ classes.length ≤ maxRequestClasses ∧
      (classes.map RequestClass.id).Nodup then
    .ok ⟨address, recipient, version, classes, h.1, h.2.1, h.2.2.1, h.2.2.2⟩
  else .error .policyInvalid

/-- One policy owner for form feedback and authoritative class bounds. -/
def collateralInBounds (amount minimum maximum : Money) : Bool :=
  !amount.isZero ∧ minimum ≤ amount ∧ amount ≤ maximum

namespace RequestPricingPolicy

def quotable (p : RequestPricingPolicy) (c : RequestClass) : Bool :=
  collateralInBounds c.collateral p.collateralMin p.collateralMax

def permits (p : RequestPricingPolicy) (classes : RecipientRequestClasses) : Bool :=
  classes.classes.all p.quotable

/-- A charge that fits with the largest collateral fits with every admitted one. -/
theorem payable_of_quotable {p : RequestPricingPolicy} {c : RequestClass}
    (h : p.quotable c = true) : (p.processingCharge.checkedAdd c.collateral).isSome = true := by
  simp only [quotable, collateralInBounds, Bool.not_eq_eq_eq_not, Bool.not_true,
    decide_eq_true_eq] at h
  obtain ⟨total, htotal⟩ := Option.isSome_iff_exists.mp p.payable
  have hsum := Money.checkedAdd_eq_some.mp htotal
  have hle : c.collateral.units ≤ p.collateralMax.units := h.2.2
  have hfits := total.units_le
  have hlt : p.processingCharge.units + c.collateral.units < 2 ^ 64 := by
    simp only [u64Max] at hfits
    omega
  exact Option.isSome_iff_exists.mpr ⟨⟨⟨_, hlt⟩⟩, Money.checkedAdd_eq_some.mpr rfl⟩

/-- Prices one class of a recipient's current publication. -/
def quote (p : RequestPricingPolicy) (classes : RecipientRequestClasses) (id : RequestClassId) :
    Except PricingRefusal RequestPrice :=
  match classes.classes.find? (fun c => c.id = id) with
  | none => .error .classUnknown
  | some c =>
    if h : p.quotable c = true then
      .ok {
        policyVersion := p.version
        unit := p.unit
        processingCharge := p.processingCharge
        collateral := c.collateral
        selected := c.selection
        published := p.published
        charged := p.charged
        secured := c.secured
        payable := payable_of_quotable h}
    else .error .classOutsidePolicy

end RequestPricingPolicy

/-- The single rule for pricing a requested class. -/
def QuotePricing.resolve (policy : Option RequestPricingPolicy)
    (classes : Option RecipientRequestClasses) (id : RequestClassId) : QuotePricing :=
  match policy, classes with
  | none, _ => .refused .noPolicy
  | some _, none => .refused .classUnknown
  | some policy, some classes =>
    match policy.quote classes id with
    | .ok price => .resolved price
    | .error refusal => .refused refusal

/-- **Quotes.** A class that is priced is one the recipient published, under the current
policy, and its collateral is within the policy's bounds. -/
theorem RequestPricingPolicy.quote_eq_ok {p : RequestPricingPolicy}
    {classes : RecipientRequestClasses} {id : RequestClassId} {price : RequestPrice}
    (h : p.quote classes id = .ok price) :
    price.selected.id = id ∧ price.policyVersion = p.version ∧ price.unit = p.unit ∧
      price.processingCharge = p.processingCharge ∧
      p.collateralMin ≤ price.collateral ∧ price.collateral ≤ p.collateralMax ∧
      ∃ c ∈ classes.classes, c.selection = price.selected ∧ c.collateral = price.collateral := by
  unfold quote at h
  split at h
  · cases h
  · rename_i c hfind
    split_ifs at h with hquotable
    cases h
    have hid := List.find?_some hfind
    have hbounds := hquotable
    simp only [quotable, collateralInBounds, Bool.not_eq_eq_eq_not, Bool.not_true,
      decide_eq_true_eq] at hbounds
    exact ⟨of_decide_eq_true hid, rfl, rfl, rfl, hbounds.2.1, hbounds.2.2, c,
      List.mem_of_find?_eq_some hfind, rfl, rfl⟩

end CsMail
