import CsMail.Finance.ProgramLedger
import CsMail.Finance.RequestProofs

/-! Requests and the program together: a reversed forfeiture waits for review.

The host applies a request's settlement or its payment evidence and, in the same commit,
brings the forfeitures into the program and holds the lots the evidence reversed. Either
all of it is kept or none. The rest of the program's operations come in between. -/
namespace CsMail
open Library

/-! ### What a request reports -/

namespace RequestFinancials
variable {f f' : RequestFinancials} {e : RequestFinancialEffects}

/-- A rejection that keeps the collateral forfeits it, under review when the capture is
already known to be reversed. -/
structure Forfeits (f f' : RequestFinancials) (e : RequestFinancialEffects) : Prop where
  unsettled : f.settlement = none
  rejected : f'.settlement = some .rejected
  kept : f'.contract.collateral.isZero = false
  forfeiture : ∃ source, e.forfeitures = [source] ∧ source.id = f.capture.id ∧
    source.requiresReview = f.captureReversed

theorem settle_review {s : RequestSettlement} {now : CanonicalTime} (hf : f.Linked)
    (h : f.settle s now = .ok (f', e)) : f'.captureReversed = f.captureReversed ∧ e.holds = [] ∧
      (e.forfeitures = [] ∨ f.Forfeits f' e) := by
  cases hsettled : f.settlement with
  | some previous =>
    by_cases hne : previous = s
    · subst hne
      cases (settle_again hsettled).symm.trans h
      exact ⟨rfl, rfl, .inl rfl⟩
    · rw [settle_conflict hsettled hne] at h
      cases h
  | none =>
    cases hfunded : f.fundingFinalized with
    | false =>
      by_cases hs : s = .cancelled
      · subst hs
        cases (settle_cancelled_unfunded hf hsettled hfunded).symm.trans h
        refine ⟨?_, rfl, .inl rfl⟩
        cases hstatus : f.captureStatus <;> simp_all [captureReversed, fundingFinalized]
      · rw [settle_unfunded hsettled hfunded hs] at h
        cases h
    | true =>
      cases s with
      | accepted =>
        cases (settle_accepted hf hsettled hfunded).symm.trans h
        exact ⟨rfl, rfl, .inl rfl⟩
      | expired =>
        cases (settle_expired hf hsettled hfunded).symm.trans h
        exact ⟨rfl, rfl, .inl rfl⟩
      | cancelled =>
        cases (settle_cancelled_funded hf hsettled hfunded).symm.trans h
        exact ⟨rfl, rfl, .inl rfl⟩
      | rejected =>
        cases (settle_rejected hsettled hfunded).symm.trans h
        refine ⟨rfl, rfl, ?_⟩
        cases hzero : f.contract.collateral.isZero with
        | true => exact .inl (by simp)
        | false =>
          exact .inr ⟨hsettled, rfl, hzero, _, rfl, rfl, rfl⟩

/-- Evidence forfeits nothing; it holds the collateral of a rejected request when it is the
first to say that the capture was reversed. -/
structure Reports (f f' : RequestFinancials) (e : RequestFinancialEffects) : Prop where
  forfeitures : e.forfeitures = []
  holds : e.holds = [] ∨ e.holds = [f.capture.id]
  reversal : f.captureReversed = false → f'.captureReversed = true →
    f.settlement = some .rejected → f.contract.collateral.isZero = false → e.holds = [f.capture.id]

theorem createRefund_reports {amount : Money} {effects : RequestFinancialEffects}
    (h : f.createRefund amount effects = .ok (f', e)) :
    f'.captureStatus = f.captureStatus ∧ e.forfeitures = effects.forfeitures ∧
      e.holds = effects.holds := by
  unfold createRefund at h
  split_ifs at h
  · cases h
    exact ⟨rfl, rfl, rfl⟩
  · dsimp only at h
    split at h
    · split_ifs at h
      cases h
      exact ⟨rfl, rfl, rfl⟩
    · cases h
      exact ⟨rfl, rfl, rfl⟩

theorem recordCapture_reports {outcome : PaymentOutcome} (h : f.recordCapture outcome = .ok (f', e)) :
    f.Reports f' e := by
  cases outcome with
  | pending =>
    cases h
    exact ⟨rfl, .inl rfl, fun hnot hyes => by rw [hnot] at hyes; cases hyes⟩
  | settled =>
    simp only [recordCapture] at h
    split_ifs at h
    · cases h
      exact ⟨rfl, .inl rfl, fun hnot hyes => by rw [hnot] at hyes; cases hyes⟩
    · obtain ⟨hstatus, hforfeitures, hholds⟩ := createRefund_reports h
      exact ⟨hforfeitures, .inl hholds, fun _ hyes => by simp [captureReversed, hstatus] at hyes⟩
    · cases h
      exact ⟨rfl, .inl rfl, fun _ hyes => by simp [captureReversed] at hyes⟩
  | voided | failed =>
    simp only [recordCapture] at h
    split_ifs at h
    · cases h
      exact ⟨rfl, .inl rfl, fun hnot hyes => by rw [hnot] at hyes; cases hyes⟩
    · cases h
      exact ⟨rfl, .inl rfl, fun _ hyes => by simp [captureReversed] at hyes⟩
  | reversed =>
    simp only [recordCapture] at h
    split_ifs at h with hfunded hreversed hrejected
    · cases h
      exact ⟨rfl, .inl rfl, fun hnot hyes => by rw [hnot] at hyes; cases hyes⟩
    · cases h
      exact ⟨rfl, .inr rfl, fun _ _ _ _ => rfl⟩
    · cases h
      exact ⟨rfl, .inl rfl, fun _ _ hsettled hkept => absurd ⟨hsettled, hkept⟩ hrejected⟩

theorem recordRefund_reports {outcome : PaymentOutcome} (h : f.recordRefund outcome = .ok (f', e)) :
    f'.captureStatus = f.captureStatus ∧ f.Reports f' e := by
  have hsame : f'.captureStatus = f.captureStatus ∧ e.forfeitures = [] ∧ e.holds = [] := by
    unfold recordRefund at h
    split at h
    · cases h
      exact ⟨rfl, rfl, rfl⟩
    · cases h
      exact ⟨rfl, rfl, rfl⟩
    · split at h <;> cases h <;> exact ⟨rfl, rfl, rfl⟩
    all_goals cases h
  obtain ⟨hstatus, hforfeitures, hholds⟩ := hsame
  refine ⟨hstatus, hforfeitures, .inl hholds, fun hnot hyes => ?_⟩
  rw [captureReversed, hstatus, ← captureReversed, hnot] at hyes
  cases hyes

theorem recordPayment_reports [Crypto] {receipt : SignedPaymentEvidence}
    (h : f.recordPayment receipt = .ok (f', e)) : f.Reports f' e := by
  rcases recordPayment_cases h with ⟨rfl, rfl⟩ | ⟨next, ⟨-, hnext⟩ | ⟨-, hnext⟩, rfl⟩
  · exact ⟨rfl, .inl rfl, fun hnot hyes => by rw [hnot] at hyes; cases hyes⟩
  · have hreports := recordCapture_reports hnext
    exact ⟨hreports.forfeitures, hreports.holds, hreports.reversal⟩
  · obtain ⟨-, hreports⟩ := recordRefund_reports hnext
    exact ⟨hreports.forfeitures, hreports.holds, hreports.reversal⟩

/-- What a settlement or a piece of evidence does, as far as reviews go. -/
structure Moves (f f' : RequestFinancials) (e : RequestFinancialEffects) : Prop where
  capture : f'.capture = f.capture
  contract : f'.contract = f.contract
  linked : f'.Linked
  rejected : f.settlement = some .rejected → f'.settlement = some .rejected
  reports : e.forfeitures = [] ∧ (e.holds = [] ∨ e.holds = [f.capture.id]) ∨
    f.Forfeits f' e ∧ e.holds = [] ∧ f'.captureReversed = f.captureReversed
  reversal : f.captureReversed = false → f'.captureReversed = true →
    f.settlement = some .rejected → f.contract.collateral.isZero = false → e.holds = [f.capture.id]

theorem settle_moves {s : RequestSettlement} {now : CanonicalTime} (hf : f.Linked)
    (h : f.settle s now = .ok (f', e)) : f.Moves f' e := by
  have hstep := settle_step hf h
  obtain ⟨hreversed, hholds, hforfeits⟩ := settle_review hf h
  refine ⟨hstep.capture, hstep.contract, hstep.linked, fun hrejected => ?_, ?_, fun hnot hyes => ?_⟩
  · by_cases hsame : s = .rejected
    · rw [(settle_settlement hf h).1, hsame]
    · rw [settle_conflict hrejected (Ne.symm hsame)] at h
      cases h
  · rcases hforfeits with hnone | hsome
    · exact .inl ⟨hnone, .inl hholds⟩
    · exact .inr ⟨hsome, hholds, hreversed⟩
  · rw [hreversed, hnot] at hyes
    cases hyes

theorem recordPayment_moves [Crypto] {receipt : SignedPaymentEvidence} (hf : f.Linked)
    (h : f.recordPayment receipt = .ok (f', e)) : f.Moves f' e := by
  have hstep := recordPayment_step hf h
  have hreports := recordPayment_reports h
  refine ⟨hstep.capture, hstep.contract, hstep.linked, fun hrejected => ?_,
    .inl ⟨hreports.forfeitures, hreports.holds⟩, hreports.reversal⟩
  rcases (recordPayment_settlement h).2 with ⟨-, hsame⟩ | ⟨-, hunfunded, -⟩
  · exact hsame.trans hrejected
  · rw [hf.funded hrejected (by simp)] at hunfunded
    cases hunfunded

end RequestFinancials

/-! ### The host -/

/-- The requests' finances, by capture, and the program their collateral goes to. -/
structure FinanceHost where
  requests : SortedMap PaymentOperationId RequestFinancials
  program : FinancialProgram

inductive HostCall
  | open (capture : PaymentOperation) (contract : RequestFinancialContract)
  | settle (capture : PaymentOperationId) (settlement : RequestSettlement)
  | recordPayment (capture : PaymentOperationId) (receipt : SignedPaymentEvidence)
  | program (call : FinancialProgram.Call)
  deriving DecidableEq

namespace FinanceHost

/-- Brings what a request reports into the program, in the host's order. -/
def commit (p : FinancialProgram) (effects : RequestFinancialEffects) (now : CanonicalTime) :
    Except ProgramError FinancialProgram := do
  let p ← effects.forfeitures.foldlM (fun p source => p.recordForfeiture source now) p
  effects.holds.foldlM (fun p id => p.noteReversal id now) p

/-- Forfeitures come from settlements; on its own a forfeiture can only be replayed. -/
def replays (p : FinancialProgram) (source : Forfeiture) : Prop :=
  (p.records.funding.get? source.id).map ForfeitureLot.source = some source

instance (p : FinancialProgram) (source : Forfeiture) : Decidable (replays p source) :=
  inferInstanceAs (Decidable (_ = _))

def new (scope : FinancialScope) (unit : SettlementUnit) : FinanceHost := ⟨∅, .new scope unit⟩

section
variable [Crypto]

def call (h : FinanceHost) (c : HostCall × CanonicalTime) : Except ProgramError FinanceHost :=
  match c.1 with
  | .open capture contract => do
    refuseIf (h.requests.contains capture.id = true) .duplicateConflict
    let f ← (RequestFinancials.new capture contract).mapError .payment
    .ok {h with requests := h.requests.insert capture.id f}
  | .settle id settlement => do
    let f ← okOr (h.requests.get? id) .missingRecord
    let (f, effects) ← (f.settle settlement c.2).mapError .payment
    let program ← commit h.program effects c.2
    .ok ⟨h.requests.insert id f, program⟩
  | .recordPayment id receipt => do
    let f ← okOr (h.requests.get? id) .missingRecord
    let (f, effects) ← (f.recordPayment receipt).mapError .payment
    let program ← commit h.program effects c.2
    .ok ⟨h.requests.insert id f, program⟩
  | .program (.recordForfeiture source) => do
    refuseIf (¬replays h.program source) .missingRecord
    let program ← h.program.recordForfeiture source c.2
    .ok {h with program}
  | .program call => do
    let program ← h.program.call (call, c.2)
    .ok {h with program}

def calls (h : FinanceHost) (cs : List (HostCall × CanonicalTime)) : FinanceHost :=
  Machine.run call h cs

end
end FinanceHost

/-! ### Lots under review -/

namespace FinancialProgram
variable {p p' next : FinancialProgram} {id : PaymentOperationId}

/-- The lot is held for review. -/
def Held (p : FinancialProgram) (id : PaymentOperationId) : Prop :=
  ∃ lot, p.records.funding.get? id = some lot ∧ lot.lifecycle = .pending true

theorem Closed.held {a : AnnualAllocation} (hclosed : p.Closed) (h : p.Held id)
    (ha : a ∈ p.records.annualAllocations.values) : id ∉ a.funding := by
  intro hmem
  obtain ⟨i, ha⟩ := SortedMap.mem_values.mp ha
  obtain ⟨lot, clearance, hlot, hassessed⟩ := hclosed.assessed i a id ha hmem
  obtain ⟨lot', hlot', hheld⟩ := h
  rw [hlot] at hlot'
  cases hlot'
  rw [hassessed] at hheld
  cases hheld

section
variable [Crypto] {c : Call × CanonicalTime}

/-- Only a release ends a hold. -/
theorem Held.happens (h : p.Held id) (hfiled : p.Filed) (hp : p.Happens c p')
    (hrelease : c.1 ≠ .apply (.hold id false)) : p'.Held id := by
  obtain ⟨-, next, revision, he, -, rfl⟩ := hp
  obtain ⟨lot, hlot, hheld⟩ := h
  obtain ⟨c, now⟩ := c
  cases he with
  | @forfeited source view htakes hview =>
    refine ⟨lot, (SortedMap.get?_insert_ne _ _ fun heq => ?_).trans hlot, hheld⟩
    rw [heq, htakes.fresh] at hlot
    cases hlot
  | @reviewed _ i old lot' hold hchange =>
    by_cases heq : id = i
    · subst heq
      rw [hold] at hlot
      cases hlot
      refine ⟨lot', SortedMap.get?_insert_self .., ?_⟩
      cases hchange with
      | held held hnot =>
        cases held with
        | true => rfl
        | false => exact absurd rfl hrelease
      | cleared evidence mature hnot => exact absurd hheld hnot
      | reversed hnot => rfl
      | kept hassessed =>
        rw [hheld] at hassessed
        cases hassessed
    · exact ⟨lot, (SortedMap.get?_insert_ne _ _ heq).trans hlot, hheld⟩
  | @finalized i schedule d view hd hview =>
    have hassesses := hfiled.assesses hd
    have hnot : id ∉ p.eligibleLots schedule := fun hmem => by
      obtain ⟨l, clearance, hl, hcleared⟩ := hassesses.cleared id hmem
      rw [hlot] at hl
      cases hl
      rw [hheld] at hcleared
      cases hcleared
    exact ⟨lot, (hassesses.marked id).trans ((if_neg hnot).trans hlot), hheld⟩
  | enrolled | changed | published | prepared | noted | confirmed | corrected => exact ⟨lot, hlot, hheld⟩

theorem Held.recordForfeiture {source : Forfeiture} {now : CanonicalTime} (h : p.Held id)
    (hfiled : p.Filed) (hop : p.recordForfeiture source now = .ok p') : p'.Held id := by
  rcases recordForfeiture_eq_ok hop with ⟨rfl, -⟩ | hhappens
  · exact h
  · exact h.happens hfiled hhappens (by simp)

theorem Held.noteReversal {i : PaymentOperationId} {now : CanonicalTime} (h : p.Held id)
    (hfiled : p.Filed) (hop : p.noteReversal i now = .ok p') : p'.Held id :=
  h.happens hfiled (noteReversal_eq_ok hop) (by simp)

/-- A new lot starts as its forfeiture says. -/
theorem recordForfeiture_starts {source : Forfeiture} {now : CanonicalTime}
    (hnew : p.records.funding.get? source.id = none)
    (hop : p.recordForfeiture source now = .ok p') :
    p'.records.funding.get? source.id = some ⟨source, .pending source.requiresReview⟩ := by
  rcases recordForfeiture_eq_ok hop with ⟨-, hdone⟩ | ⟨-, next, revision, he, -, rfl⟩
  · cases hdone with
    | forfeited hlot => rw [hnew] at hlot; cases hlot
  · cases he with
    | forfeited => exact SortedMap.get?_insert_self ..
    | reviewed hlot hchange => cases hchange
    | changed hm hchange => cases hchange

/-- An unassessed lot is held once its reversal is noted. -/
theorem noteReversal_holds {now : CanonicalTime}
    (hopen : ∀ lot, p.records.funding.get? id = some lot → lot.lifecycle.isAssessed = false)
    (hop : p.noteReversal id now = .ok p') : p'.Held id := by
  obtain ⟨-, next, revision, he, -, rfl⟩ := noteReversal_eq_ok hop
  cases he with
  | @reviewed _ i lot lot' hlot hchange =>
    cases hchange with
    | reversed hnot => exact ⟨_, SortedMap.get?_insert_self .., rfl⟩
    | kept hassessed =>
      rw [hopen lot hlot] at hassessed
      cases hassessed
  | changed hm hchange => cases hchange

/-- The lots of other forfeitures are left as they are. -/
theorem recordForfeiture_others {source : Forfeiture} {now : CanonicalTime} (hne : id ≠ source.id)
    (hop : p.recordForfeiture source now = .ok p') :
    p'.records.funding.get? id = p.records.funding.get? id := by
  rcases recordForfeiture_eq_ok hop with ⟨rfl, -⟩ | ⟨-, next, revision, he, -, rfl⟩
  · rfl
  · cases he with
    | forfeited => exact SortedMap.get?_insert_ne _ _ hne
    | reviewed hlot hchange => cases hchange
    | changed hm hchange => cases hchange

theorem Kept.recordForfeiture {source : Forfeiture} {now : CanonicalTime} (h : p.Kept)
    (hop : p.recordForfeiture source now = .ok p') : p'.Kept := by
  rcases recordForfeiture_eq_ok hop with ⟨rfl, -⟩ | hhappens
  · exact h
  · exact h.happens hhappens

/-- Nothing but a forfeiture brings in a lot. -/
theorem Event.lots {now : CanonicalTime} {c : Call} (he : p.Event now c next) (hfiled : p.Filed)
    {lot : ForfeitureLot} (hlot : next.records.funding.get? id = some lot) :
    (∃ source, c = .recordForfeiture source ∧ source.id = id) ∨
      ∃ old, p.records.funding.get? id = some old := by
  cases he with
  | @forfeited source view htakes hview =>
    have hlot : (p.records.funding.insert source.id _).get? id = some lot := hlot
    rw [SortedMap.get?_insert] at hlot
    split_ifs at hlot with heq
    · exact .inl ⟨source, rfl, heq.symm⟩
    · exact .inr ⟨lot, hlot⟩
  | @reviewed _ i old lot' hold hchange =>
    have hlot : (p.records.funding.insert i lot').get? id = some lot := hlot
    rw [SortedMap.get?_insert] at hlot
    split_ifs at hlot with heq
    · exact .inr ⟨old, heq ▸ hold⟩
    · exact .inr ⟨lot, hlot⟩
  | @finalized i schedule d view hd hview =>
    have hlot : d.assessed.funding.get? id = some lot := hlot
    rw [(hfiled.assesses hd).marked] at hlot
    split_ifs at hlot
    · obtain ⟨old, hold, -⟩ := Option.map_eq_some_iff.mp hlot
      exact .inr ⟨old, hold⟩
    · exact .inr ⟨lot, hlot⟩
  | enrolled | changed | published | prepared | noted | confirmed | corrected => exact .inr ⟨lot, hlot⟩

end
end FinancialProgram
namespace FinanceHost
variable {h h' : FinanceHost} {id : PaymentOperationId}

/-- The capture is known to be reversed, and its collateral is in the program. -/
def Reversed (h : FinanceHost) (id : PaymentOperationId) : Prop :=
  (∃ f, h.requests.get? id = some f ∧ f.captureReversed = true) ∧
    ∃ lot, h.program.records.funding.get? id = some lot

instance (h : FinanceHost) (id : PaymentOperationId) : Decidable (h.Reversed id) :=
  decidable_of_iff ((h.requests.get? id).any RequestFinancials.captureReversed = true ∧
      (h.program.records.funding.get? id).isSome = true) <| by
    simp [Reversed, Option.any_eq_true, Option.isSome_iff_exists]

/-- The lot is held, and no distribution includes it. -/
def UnderReview (h : FinanceHost) (id : PaymentOperationId) : Prop :=
  h.program.Held id ∧ ∀ a ∈ h.program.records.annualAllocations.values, id ∉ a.funding

section
variable [Crypto]

/-- Every lot comes from the rejection of the request whose capture it is filed under. -/
structure Sourced (h : FinanceHost) : Prop where
  requests : ∀ id f, h.requests.get? id = some f → f.capture.id = id ∧ f.Linked
  lots : ∀ id lot, h.program.records.funding.get? id = some lot →
    ∃ f, h.requests.get? id = some f ∧ f.settlement = some .rejected ∧
      f.contract.collateral.isZero = false
  kept : h.program.Kept

variable {p p' : FinancialProgram} {now : CanonicalTime}

/-- What a request reports is nothing, one hold, or one forfeiture. -/
inductive Commits (f f' : RequestFinancials) (p : FinancialProgram) (now : CanonicalTime) :
    FinancialProgram → Prop
  | nothing : ¬(f.captureReversed = false ∧ f'.captureReversed = true ∧
      f.settlement = some .rejected ∧ f.contract.collateral.isZero = false) → Commits f f' p now p
  | held {p' : FinancialProgram} : p.noteReversal f.capture.id now = .ok p' → Commits f f' p now p'
  | forfeited {e : RequestFinancialEffects} {source : Forfeiture} {p' : FinancialProgram} :
      f.Forfeits f' e → source.id = f.capture.id → source.requiresReview = f'.captureReversed →
      p.recordForfeiture source now = .ok p' → Commits f f' p now p'

omit [Crypto] in
theorem commit_eq_ok {f f' : RequestFinancials} {e : RequestFinancialEffects} (hmoves : f.Moves f' e)
    (h : commit p e now = .ok p') : Commits f f' p now p' := by
  have hreversal := hmoves.reversal
  rcases hmoves.reports with ⟨hforfeitures, hnone | hhold⟩ | ⟨hforfeits, hnone, hsame⟩
  · simp only [commit, hforfeitures, hnone, List.foldlM_nil] at h
    cases h
    refine .nothing fun ⟨hnot, hyes, hrejected, hkept⟩ => ?_
    rw [hreversal hnot hyes hrejected hkept] at hnone
    cases hnone
  · simp only [commit, hforfeitures, hhold, List.foldlM_cons, List.foldlM_nil, bind_eq_ok,
      pure_eq_ok] at h
    obtain ⟨q, rfl, q', hnote, rfl⟩ := h
    exact .held hnote
  · obtain ⟨source, hsource, hid, hreview⟩ := hforfeits.forfeiture
    simp only [commit, hsource, hnone, List.foldlM_cons, List.foldlM_nil, bind_eq_ok,
      pure_eq_ok] at h
    obtain ⟨q, ⟨q', hrecord, rfl⟩, rfl⟩ := h
    exact .forfeited hforfeits hid (hreview.trans hsame.symm) hrecord

/-- The steps of the host. -/
inductive Happens (h : FinanceHost) (now : CanonicalTime) : HostCall → FinanceHost → Prop
  | opened {capture : PaymentOperation} {contract : RequestFinancialContract} {f : RequestFinancials} :
      h.requests.get? capture.id = none → RequestFinancials.new capture contract = .ok f →
      Happens h now (.open capture contract) {h with requests := h.requests.insert capture.id f}
  | moved {c : HostCall} {i : PaymentOperationId} {f f' : RequestFinancials}
      {e : RequestFinancialEffects} {program : FinancialProgram} :
      (∀ call, c ≠ .program call) → h.requests.get? i = some f → f.Moves f' e →
      Commits f f' h.program now program → Happens h now c ⟨h.requests.insert i f', program⟩
  | ran {call : FinancialProgram.Call} {program : FinancialProgram} :
      (∀ source, call = .recordForfeiture source → replays h.program source) →
      h.program.call (call, now) = .ok program → Happens h now (.program call) {h with program}

theorem call_eq_ok (hlinked : ∀ id f, h.requests.get? id = some f → f.Linked) {c : HostCall}
    (hcall : h.call (c, now) = .ok h') : h.Happens now c h' := by
  cases c with
  | «open» capture contract =>
    simp only [call, bind_eq_ok, refuseIf_eq_ok, mapError_eq_ok, exists_const, Bool.not_eq_true,
      SortedMap.contains_eq_false, Except.ok.injEq] at hcall
    obtain ⟨hfresh, f, hnew, rfl⟩ := hcall
    exact .opened hfresh hnew
  | settle i settlement =>
    simp only [call, bind_eq_ok, okOr_eq_ok, mapError_eq_ok, Except.ok.injEq] at hcall
    obtain ⟨f, hf, ⟨f', e⟩, hsettle, program, hcommit, rfl⟩ := hcall
    have hmoves := RequestFinancials.settle_moves (hlinked i f hf) hsettle
    exact .moved (by simp) hf hmoves (commit_eq_ok hmoves hcommit)
  | recordPayment i receipt =>
    simp only [call, bind_eq_ok, okOr_eq_ok, mapError_eq_ok, Except.ok.injEq] at hcall
    obtain ⟨f, hf, ⟨f', e⟩, hrecord, program, hcommit, rfl⟩ := hcall
    have hmoves := RequestFinancials.recordPayment_moves (hlinked i f hf) hrecord
    exact .moved (by simp) hf hmoves (commit_eq_ok hmoves hcommit)
  | program call =>
    cases call with
    | recordForfeiture source =>
      simp only [FinanceHost.call, bind_eq_ok, refuseIf_eq_ok, exists_const, Decidable.not_not,
        Except.ok.injEq] at hcall
      obtain ⟨hreplays, program, hop, rfl⟩ := hcall
      exact .ran (fun s hs => by cases hs; exact hreplays) hop
    | apply command =>
      obtain ⟨program, hop, hcall⟩ := bind_eq_ok.mp hcall
      cases hcall
      exact .ran (by simp) hop
    | noteReversal i =>
      obtain ⟨program, hop, hcall⟩ := bind_eq_ok.mp hcall
      cases hcall
      exact .ran (by simp) hop
    | prepareMemberPayment i bank =>
      obtain ⟨program, hop, hcall⟩ := bind_eq_ok.mp hcall
      cases hcall
      exact .ran (by simp) hop
    | confirmPayout i receipt key =>
      obtain ⟨program, hop, hcall⟩ := bind_eq_ok.mp hcall
      cases hcall
      exact .ran (by simp) hop

/-! ### Steps -/

theorem sourced_new (scope : FinancialScope) (unit : SettlementUnit) : (new scope unit).Sourced :=
  ⟨by simp [new], by simp [new, FinancialProgram.new], FinancialProgram.kept_new scope unit⟩

theorem Commits.kept {f f' : RequestFinancials} (h : Commits f f' p now p') (hp : p.Kept) : p'.Kept := by
  cases h with
  | nothing => exact hp
  | held hnote => exact hp.happens (FinancialProgram.noteReversal_eq_ok hnote)
  | forfeited hforfeits hid hreview hrecord => exact hp.recordForfeiture hrecord

/-- A commit brings in no lot but that of the rejected request. -/
theorem Commits.lots {f f' : RequestFinancials} (h : Commits f f' p now p') (hfiled : p.Filed)
    {lot : ForfeitureLot} (hlot : p'.records.funding.get? id = some lot) :
    (∃ old, p.records.funding.get? id = some old) ∨ id = f.capture.id ∧
      f'.settlement = some .rejected ∧ f'.contract.collateral.isZero = false := by
  cases h with
  | nothing => exact .inl ⟨lot, hlot⟩
  | held hnote =>
    obtain ⟨-, next, revision, he, -, rfl⟩ := FinancialProgram.noteReversal_eq_ok hnote
    rcases he.lots hfiled hlot with ⟨source, hsource, -⟩ | hold
    · cases hsource
    · exact .inl hold
  | @forfeited e source _ hforfeits hid hreview hrecord =>
    by_cases heq : id = f.capture.id
    · exact .inr ⟨heq, hforfeits.rejected, hforfeits.kept⟩
    · rw [FinancialProgram.recordForfeiture_others (hid ▸ heq) hrecord] at hlot
      exact .inl ⟨lot, hlot⟩

theorem Commits.keeps_held {f f' : RequestFinancials} (h : Commits f f' p now p') (hfiled : p.Filed)
    (hheld : p.Held id) : p'.Held id := by
  cases h with
  | nothing => exact hheld
  | held hnote => exact hheld.noteReversal hfiled hnote
  | forfeited hforfeits hid hreview hrecord => exact hheld.recordForfeiture hfiled hrecord

theorem Sourced.happens {c : HostCall} (hs : h.Sourced) (hc : h.Happens now c h') : h'.Sourced := by
  cases hc with
  | @opened capture contract f hfresh hnew =>
    obtain ⟨hcapture, -, hstatus, hsettlement, hrefund, -⟩ := RequestFinancials.new_eq_ok hnew
    refine ⟨fun i g hg => ?_, fun i lot hlot => ?_, hs.kept⟩
    · have hg : (h.requests.insert capture.id f).get? i = some g := hg
      rw [SortedMap.get?_insert] at hg
      split_ifs at hg with heq
      · cases hg
        exact ⟨by rw [hcapture, heq], .unsettled hstatus hsettlement hrefund⟩
      · exact hs.requests i g hg
    · obtain ⟨g, hg, hrejected⟩ := hs.lots i lot hlot
      refine ⟨g, (SortedMap.get?_insert_ne _ _ fun heq => ?_).trans hg, hrejected⟩
      rw [heq, hfresh] at hg
      cases hg
  | @moved _ i f f' e program hc hf hmoves hcommits =>
    obtain ⟨hid, -⟩ := hs.requests i f hf
    refine ⟨fun j g hg => ?_, fun j lot hlot => ?_, hcommits.kept hs.kept⟩
    · have hg : (h.requests.insert i f').get? j = some g := hg
      rw [SortedMap.get?_insert] at hg
      split_ifs at hg with heq
      · cases hg
        exact ⟨by rw [hmoves.capture, hid, heq], hmoves.linked⟩
      · exact hs.requests j g hg
    · show ∃ g, (h.requests.insert i f').get? j = some g ∧ _
      rw [SortedMap.get?_insert]
      rcases hcommits.lots hs.kept.filed hlot with ⟨old, hold⟩ | ⟨hj, hrejected⟩
      · obtain ⟨g, hg, hrejected, hkept⟩ := hs.lots j old hold
        split_ifs with heq
        · rw [heq, hf] at hg
          cases hg
          exact ⟨f', rfl, hmoves.rejected hrejected, by rw [hmoves.contract, hkept]⟩
        · exact ⟨g, hg, hrejected, hkept⟩
      · rw [if_pos (hj.trans hid)]
        exact ⟨f', rfl, hrejected⟩
  | @ran call program hreplays hop =>
    rcases FinancialProgram.call_eq_ok hop with ⟨hsame, -⟩ | hhappens
    · exact ⟨hs.requests, fun j lot hlot => hs.lots j lot (hsame ▸ hlot), hsame ▸ hs.kept⟩
    · refine ⟨hs.requests, fun j lot hlot => ?_, hs.kept.happens hhappens⟩
      obtain ⟨-, next, revision, he, -, rfl⟩ := hhappens
      rcases he.lots hs.kept.filed hlot with ⟨source, hsource, hid⟩ | ⟨old, hold⟩
      · obtain ⟨old, hold, -⟩ := Option.map_eq_some_iff.mp (hreplays source hsource)
        exact hs.lots j old (hid ▸ hold)
      · exact hs.lots j old hold

/-- The step after which the program holds a reversed capture's collateral puts it under review. -/
theorem Sourced.reversed {c : HostCall} (hs : h.Sourced) (hc : h.Happens now c h')
    (hnew : ¬h.Reversed id) (hrev : h'.Reversed id)
    (hopen : ∀ lot, h.program.records.funding.get? id = some lot → lot.lifecycle.isAssessed = false) :
    h'.program.Held id := by
  obtain ⟨⟨g, hg, hreversed⟩, lot, hlot⟩ := hrev
  cases hc with
  | @opened capture contract f hfresh hopened =>
    have hg : (h.requests.insert capture.id f).get? id = some g := hg
    rw [SortedMap.get?_insert] at hg
    split_ifs at hg
    · cases hg
      obtain ⟨-, -, hstatus, -⟩ := RequestFinancials.new_eq_ok hopened
      simp [RequestFinancials.captureReversed, hstatus] at hreversed
    · exact absurd ⟨⟨g, hg, hreversed⟩, lot, hlot⟩ hnew
  | @moved _ i f f' e program hc hf hmoves hcommits =>
    obtain ⟨hid, -⟩ := hs.requests i f hf
    have hg : (h.requests.insert i f').get? id = some g := hg
    rw [SortedMap.get?_insert] at hg
    split_ifs at hg with heq
    · cases hg
      subst heq
      cases hcommits with
      | nothing hquiet =>
        -- the collateral was there already, so the request was rejected: what is new is the reversal
        obtain ⟨g, hg, hrejected, hkept⟩ := hs.lots id lot hlot
        rw [hf] at hg
        cases hg
        refine absurd ⟨?_, hreversed, hrejected, hkept⟩ hquiet
        exact Bool.eq_false_iff.mpr fun hyes => hnew ⟨⟨f, hf, hyes⟩, lot, hlot⟩
      | held hnote =>
        rw [hid] at hnote
        exact FinancialProgram.noteReversal_holds hopen hnote
      | @forfeited e source _ hforfeits hsource hreview hrecord =>
        have hfresh : h.program.records.funding.get? source.id = none := by
          rw [Option.eq_none_iff_forall_not_mem]
          intro old hold
          obtain ⟨g, hg, hrejected, -⟩ := hs.lots source.id old hold
          rw [hsource, hid, hf] at hg
          cases hg
          rw [hforfeits.unsettled] at hrejected
          cases hrejected
        refine ⟨_, (hsource.trans hid) ▸ FinancialProgram.recordForfeiture_starts hfresh hrecord, ?_⟩
        rw [hreview, hreversed]
    · have hnone : id ≠ f.capture.id := hid ▸ heq
      rcases hcommits.lots hs.kept.filed hlot with ⟨old, hold⟩ | ⟨hsame, -⟩
      · exact absurd ⟨⟨g, hg, hreversed⟩, old, hold⟩ hnew
      · exact absurd hsame hnone
  | @ran call program hreplays hop =>
    have hold : ∃ old, h.program.records.funding.get? id = some old := by
      rcases FinancialProgram.call_eq_ok hop with ⟨hsame, -⟩ | ⟨-, next, revision, he, -, rfl⟩
      · exact ⟨lot, hsame ▸ hlot⟩
      · rcases he.lots hs.kept.filed hlot with ⟨source, hsource, hid⟩ | hold
        · obtain ⟨old, hold, -⟩ := Option.map_eq_some_iff.mp (hreplays source hsource)
          exact ⟨old, hid ▸ hold⟩
        · exact hold
    exact absurd ⟨⟨g, hg, hreversed⟩, hold⟩ hnew

theorem held_happens {c : HostCall} (hs : h.Sourced) (hc : h.Happens now c h')
    (hheld : h.program.Held id) (hrelease : c ≠ .program (.apply (.hold id false))) :
    h'.program.Held id := by
  cases hc with
  | opened => exact hheld
  | moved hc hf hmoves hcommits => exact hcommits.keeps_held hs.kept.filed hheld
  | ran hreplays hop =>
    rcases FinancialProgram.call_eq_ok hop with ⟨hsame, -⟩ | hhappens
    · exact hsame ▸ hheld
    · exact hheld.happens hs.kept.filed hhappens fun heq => hrelease (by rw [← heq])

/-! ### Runs -/

theorem Sourced.call {c : HostCall × CanonicalTime} (hs : h.Sourced) (hcall : h.call c = .ok h') :
    h.Happens c.2 c.1 h' :=
  call_eq_ok (fun i f hf => (hs.requests i f hf).2) hcall

theorem Sourced.calls (hs : h.Sourced) (cs : List (HostCall × CanonicalTime)) : (h.calls cs).Sourced :=
  Machine.run_preserves (fun _ _ _ hs hcall => hs.happens (hs.call hcall)) hs cs

theorem UnderReview.calls (hs : h.Sourced) (hheld : h.program.Held id)
    {cs : List (HostCall × CanonicalTime)}
    (hrelease : ∀ now, (.program (.apply (.hold id false)), now) ∉ cs) : (h.calls cs).UnderReview id := by
  have hrun : (h.calls cs).Sourced ∧ (h.calls cs).program.Held id :=
    Machine.run_preserves_of (P := fun h : FinanceHost => h.Sourced ∧ h.program.Held id)
      (C := fun c : HostCall × CanonicalTime => c.1 ≠ .program (.apply (.hold id false)))
      (fun h c h' hc hP hcall => ⟨hP.1.happens (hP.1.call hcall),
        held_happens hP.1 (hP.1.call hcall) hP.2 hc⟩)
      ⟨hs, hheld⟩ (fun c hc heq => hrelease c.2 (heq ▸ hc))
  exact ⟨hrun.2, fun a ha => hrun.1.kept.closed.held hrun.2 ha⟩

/-- **A reversed forfeiture waits for review.** Whichever of the rejection and the reversal
comes second, the commit that brings it puts the unassessed lot under review; and whatever
follows, replays included, it is neither released nor distributed until an operator
releases it. -/
theorem reversed_forfeiture_reviewed (scope : FinancialScope) (unit : SettlementUnit)
    (before after : List (HostCall × CanonicalTime)) (c : HostCall × CanonicalTime)
    (hnew : ¬((new scope unit).calls before).Reversed id)
    (hrev : ((new scope unit).calls (before ++ [c])).Reversed id)
    (hopen : ∀ lot, ((new scope unit).calls before).program.records.funding.get? id = some lot →
      lot.lifecycle.isAssessed = false)
    (hrelease : ∀ now, (.program (.apply (.hold id false)), now) ∉ after) :
    ((new scope unit).calls (before ++ c :: after)).UnderReview id := by
  have hs := (sourced_new scope unit).calls before
  have hstep : (new scope unit).calls (before ++ [c]) =
      Machine.advance call ((new scope unit).calls before) c := Machine.run_append ..
  have hrun : (new scope unit).calls (before ++ c :: after) =
      ((new scope unit).calls (before ++ [c])).calls after := by
    rw [show before ++ c :: after = before ++ [c] ++ after by simp]
    exact Machine.run_append ..
  rcases Machine.advance_cases call ((new scope unit).calls before) c with hsame | hcall
  · rw [hstep, hsame] at hrev
    exact absurd hrev hnew
  · rw [← hstep] at hcall
    have hhappens := hs.call hcall
    rw [hrun]
    exact UnderReview.calls (hs.happens hhappens) (hs.reversed hhappens hnew hrev hopen) hrelease

end

/-! ### The example rejected, then reversed -/

namespace Example
open RequestBooks

def reversal : SignedPaymentEvidence where
  evidence := ⟨⟨2⟩, exampleCapture.id, exampleDigest, .reversed⟩
  signature :=
    [2, 204, 39, 27, 80, 58, 161, 95, 22, 57, 188, 206, 90, 112, 34, 124, 44, 146, 140, 189, 162,
     174, 56, 60, 14, 166, 231, 26, 163, 243, 6, 170, 183, 2, 155, 247, 227, 153, 77, 138, 41, 101,
     39, 249, 219, 230, 128, 203, 29, 27, 72, 195, 239, 192, 79, 127, 211, 119, 14, 174, 174, 166,
     236, 5]

/-- The hash and the two signatures of the example, and no others. -/
@[reducible] def crypto : Crypto where
  sha256 bytes := if bytes = exampleCapture.digestBytes then exampleDigest else zero32
  validKey key := key = exampleKey
  verifyStrict key message signature := key = exampleKey ∧
    ((message = exampleReceipt.evidence.signingBytes ∧ signature = exampleReceipt.signature) ∨
      (message = reversal.evidence.signingBytes ∧ signature = reversal.signature))

def unit : SettlementUnit := ⟨1⟩

def start : FinanceHost := new exampleScope unit

/-- The capture settled, the request rejected, and its lot cleared. -/
def rejected : List (HostCall × CanonicalTime) :=
  [(.open exampleCapture exampleContract, ⟨1⟩), (.recordPayment ⟨1⟩ exampleReceipt, ⟨2⟩),
    (.settle ⟨1⟩ .rejected, ⟨3⟩), (.program (.apply (.clearMaturity ⟨1⟩ ⟨7⟩)), ⟨4⟩)]

def reversed : HostCall × CanonicalTime := (.recordPayment ⟨1⟩ reversal, ⟨5⟩)

/-- Replays, and another attempt to clear the lot. -/
def later : List (HostCall × CanonicalTime) :=
  [(.recordPayment ⟨1⟩ reversal, ⟨6⟩), (.settle ⟨1⟩ .rejected, ⟨7⟩),
    (.program (.apply (.clearMaturity ⟨1⟩ ⟨8⟩)), ⟨8⟩), (.program (.noteReversal ⟨1⟩), ⟨9⟩)]

end Example

/-- The cleared lot of a rejected request is held when its capture is reversed, and stays so. -/
theorem reversed_forfeiture_reviewed_cleared :
    (@calls Example.crypto Example.start (Example.rejected ++ Example.reversed :: Example.later)).UnderReview
      ⟨1⟩ := by
  have hlot : ((@calls Example.crypto Example.start Example.rejected).program.records.funding.get? ⟨1⟩).all
      (fun lot => !lot.lifecycle.isAssessed) = true := by decide +kernel
  refine @reversed_forfeiture_reviewed ⟨1⟩ Example.crypto RequestBooks.exampleScope Example.unit
    Example.rejected Example.later Example.reversed ?_ ?_ (fun lot h => ?_) (by simp [Example.later])
  · show ¬(@calls Example.crypto Example.start Example.rejected).Reversed ⟨1⟩
    decide +kernel
  · show (@calls Example.crypto Example.start (Example.rejected ++ [Example.reversed])).Reversed ⟨1⟩
    decide +kernel
  · rw [Example.start, h] at hlot
    simpa using hlot

end FinanceHost
end CsMail
