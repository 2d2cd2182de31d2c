import CsMail.LedgerProofs
import CsMail.Library.InPlace
import CsMail.Library.Machine

/-! Whole runs of one ledger: any batches, under any expected revisions.

The state's `apply` assigns once, after its last check, so it computes
`LedgerState.apply` and a refused batch leaves the ledger as it was. What a run has posted
is the batches it accepted, each once (`calls_posted`). -/
namespace CsMail
open Library

structure LedgerCall where
  expectedRevision : U64
  batch : LedgerBatch
  deriving DecidableEq

namespace LedgerState

def totalValue (s : LedgerState) : Except LedgerError Money := s.view.totalValue

namespace Method

def apply (expectedRevision : U64) (batch : LedgerBatch) : InPlace LedgerState LedgerError Unit := do
  let s ← get
  refuseIf (s.view.revision ≠ expectedRevision) LedgerError.versionConflict
  let view ← s.view.apply batch
  modify fun s => {s with view}

end Method

theorem computes_apply (expectedRevision : U64) (batch : LedgerBatch) :
    (Method.apply expectedRevision batch).Computes fun s =>
      (s.apply expectedRevision batch).map fun s' => (s', ()) := by
  intro s
  refine InPlace.on_get.trans ?_
  unfold LedgerState.apply
  by_cases hstale : s.view.revision ≠ expectedRevision
  · simp only [refuseIf, if_pos hstale]
    rfl
  · simp only [refuseIf, if_neg hstale]
    cases s.view.apply batch <;> rfl

/-- The call is made; what it leaves of the ledger is kept, also if it is refused. -/
def after (s : LedgerState) (c : LedgerCall) : LedgerState :=
  ((Method.apply c.expectedRevision c.batch).on s).2

def calls (s : LedgerState) (cs : List LedgerCall) : LedgerState := cs.foldl after s

/-- The batches a run applied, the first first. -/
def accepted (s : LedgerState) : List LedgerCall → List LedgerBatch
  | [] => []
  | c :: rest =>
    match (Method.apply c.expectedRevision c.batch).on s with
    | (.ok _, s') => c.batch :: accepted s' rest
    | (.error _, s') => accepted s' rest

section
variable {s s' : LedgerState} {expectedRevision : U64} {batch : LedgerBatch}

/-! ### One call -/

theorem apply_eq_ok : s.apply expectedRevision batch = .ok s' ↔
    s.view.revision = expectedRevision ∧ s.view.apply batch = .ok s'.view := by
  simp only [LedgerState.apply, bind_eq_ok, refuseIf_eq_ok, exists_const, Except.ok.injEq, ne_eq, not_not]
  constructor
  · rintro ⟨hcurrent, view, hview, rfl⟩
    exact ⟨hcurrent, hview⟩
  · rintro ⟨hcurrent, hview⟩
    exact ⟨hcurrent, s'.view, hview, rfl⟩

theorem on_apply (s : LedgerState) (expectedRevision : U64) (batch : LedgerBatch) :
    (Method.apply expectedRevision batch).on s =
      InPlace.outcome s ((s.apply expectedRevision batch).map fun s' => (s', ())) :=
  computes_apply expectedRevision batch s

theorem on_apply_ok {u : Unit} (h : (Method.apply expectedRevision batch).on s = (.ok u, s')) :
    s.view.revision = expectedRevision ∧ s.view.apply batch = .ok s'.view := by
  obtain ⟨next, hnext, heq⟩ := map_eq_ok.mp ((computes_apply _ _).accepted h)
  cases heq
  exact apply_eq_ok.mp hnext

/-- What an accepted batch changes. -/
structure Posts (s : LedgerState) (batch : LedgerBatch) (s' : LedgerState) : Prop where
  revision : s'.view.revision.val = s.view.revision.val + 1
  unit : s'.view.unit = s.view.unit
  net : ∀ a, s'.view.signedBalance a = s.view.signedBalance a + batch.net a

theorem on_apply_posts {u : Unit} (h : (Method.apply expectedRevision batch).on s = (.ok u, s')) :
    s.Posts batch s' := by
  obtain ⟨-, -, hunit, hrevision, hnet⟩ := LedgerView.apply_spec (on_apply_ok h).2
  exact ⟨hrevision, hunit, hnet⟩

/-- The state's version of an operation does what the read-only one says. -/
structure Agrees (s : LedgerState) : Prop where
  applied : ∀ batch view, s.view.apply batch = .ok view →
    (Method.apply s.view.revision batch).on s = (.ok (), ⟨view⟩)
  refused : ∀ batch e, s.view.apply batch = .error e →
    (Method.apply s.view.revision batch).on s = (.error e, s)
  stale : ∀ expectedRevision batch, s.view.revision ≠ expectedRevision →
    (Method.apply expectedRevision batch).on s = (.error .versionConflict, s)
  totalValue : s.totalValue = s.view.totalValue

theorem agrees (s : LedgerState) : s.Agrees where
  applied batch view h := by
    rw [on_apply, apply_eq_ok.mpr ⟨rfl, h⟩]
    rfl
  refused batch e h := by
    have hrefused : s.apply s.view.revision batch = .error e := by
      simp only [LedgerState.apply, refuseIf, ne_eq, not_true, if_false, ok_bind, h, error_bind]
    rw [on_apply, hrefused]
    rfl
  stale expectedRevision batch h := by
    have hstale : s.apply expectedRevision batch = .error .versionConflict := by
      simp only [LedgerState.apply, refuseIf, if_pos h, error_bind]
    rw [on_apply, hstale]
    rfl
  totalValue := rfl

/-! ### Whole runs -/

/-- The ledger's own check passes. -/
structure Kept (s : LedgerState) : Prop where
  conserved : s.view.Conserved
  totalValue : s.totalValue = .ok .zero

theorem kept_new (unit : SettlementUnit) : (new unit).Kept := ⟨new_conserved unit, rfl⟩

theorem Kept.after (h : s.Kept) (c : LedgerCall) : (s.after c).Kept := by
  unfold LedgerState.after
  rcases hon : (Method.apply c.expectedRevision c.batch).on s with ⟨e | u, s'⟩
  · rw [(computes_apply _ _).refused hon]
    exact h
  · have happly := (on_apply_ok hon).2
    exact ⟨(LedgerView.apply_spec happly).2.1, LedgerView.apply_totalValue happly⟩

theorem Kept.calls (h : s.Kept) (cs : List LedgerCall) : (s.calls cs).Kept := by
  induction cs generalizing s with
  | nil => exact h
  | cons c rest ih => exact ih (h.after c)

/-- What a ledger guarantees between two calls, and what its next call can do. -/
structure Safe (s : LedgerState) : Prop where
  distinct : (s.view.balances.map Prod.fst).Nodup
  total : (s.view.balances.map Prod.snd).sum = 0
  obligations : ∀ a, a.permitsNegative = false → 0 ≤ s.view.signedBalance a ∧ s.view.signedBalance a ≤ u64Max
  clearing : ∀ a, a.permitsNegative = true →
    -(u64Max : Int) ≤ s.view.signedBalance a ∧ s.view.signedBalance a ≤ u64Max
  checked : s.totalValue = .ok .zero
  refused : ∀ expectedRevision batch e s',
    (Method.apply expectedRevision batch).on s = (.error e, s') → s' = s
  accepted : ∀ expectedRevision batch u s',
    (Method.apply expectedRevision batch).on s = (.ok u, s') → s.Posts batch s'

theorem Kept.safe (h : s.Kept) : s.Safe where
  distinct := h.conserved.distinct
  total := h.conserved.total
  obligations a ha := ⟨h.conserved.signedBalance_nonneg ha, (h.conserved.signedBalance_bounded a).2⟩
  clearing a _ := h.conserved.signedBalance_bounded a
  checked := h.totalValue
  refused expectedRevision batch _ _ hon := (computes_apply expectedRevision batch).refused hon
  accepted _ _ _ _ hon := on_apply_posts hon

/-- A run has posted the batches it accepted, each once. -/
theorem calls_posted (s : LedgerState) (cs : List LedgerCall) :
    (s.calls cs).view.revision.val = s.view.revision.val + (s.accepted cs).length ∧
      ∀ a, (s.calls cs).view.signedBalance a =
        s.view.signedBalance a + ((s.accepted cs).map fun b => b.net a).sum := by
  induction cs generalizing s with
  | nil => exact ⟨rfl, fun a => (add_zero _).symm⟩
  | cons c rest ih =>
    rcases hon : (Method.apply c.expectedRevision c.batch).on s with ⟨e | u, s'⟩
    · have hafter : s.calls (c :: rest) = s'.calls rest := by simp only [calls, List.foldl_cons, after, hon]
      have haccepted : s.accepted (c :: rest) = s'.accepted rest := by simp only [LedgerState.accepted, hon]
      have hsame := (computes_apply _ _).refused hon
      rw [hafter, haccepted, hsame]
      exact ih s
    · have hafter : s.calls (c :: rest) = s'.calls rest := by simp only [calls, List.foldl_cons, after, hon]
      have haccepted : s.accepted (c :: rest) = c.batch :: s'.accepted rest := by
        simp only [LedgerState.accepted, hon]
      obtain ⟨hrevision, hbalance⟩ := ih s'
      have hposts := on_apply_posts hon
      rw [hafter, haccepted, List.length_cons]
      refine ⟨by rw [hrevision, hposts.revision]; omega, fun a => ?_⟩
      rw [hbalance, hposts.net, List.map_cons, List.sum_cons]
      omega

end

/-- **The ledger is safe.** Whatever batches are applied to an empty ledger: its balances sum
to zero and keep their bounds, a refused batch changes nothing, an accepted one posts its
transfers under the next revision, and the read-only operations say the same as the state's. -/
theorem ledger_safe (unit : SettlementUnit) (cs : List LedgerCall) :
    ((new unit).calls cs).Safe ∧ ∀ s : LedgerState, s.Agrees :=
  ⟨((kept_new unit).calls cs).safe, agrees⟩

end LedgerState
end CsMail
