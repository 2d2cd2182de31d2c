import CsMail.Library.Refusal
import Mathlib.Order.Defs.PartialOrder

/-! Machines that refuse: a step either yields the next state or an error, and a
refused input leaves the state as it was.

An invariant need only be checked where a step succeeds (`run_preserves`); with it, a
reflexive and transitive relation that every successful step obeys holds between the
ends of a run (`run_relates`). -/
namespace CsMail.Library.Machine
variable {ε σ ι : Type*}

def advance (step : σ → ι → Except ε σ) (s : σ) (i : ι) : σ :=
  match step s i with
  | .ok s' => s'
  | .error _ => s

def run (step : σ → ι → Except ε σ) (s : σ) (inputs : List ι) : σ := inputs.foldl (advance step) s

variable {step : σ → ι → Except ε σ} {P : σ → Prop}

@[simp] theorem run_nil (s : σ) : run step s [] = s := rfl

@[simp] theorem run_cons (s : σ) (i : ι) (rest : List ι) :
    run step s (i :: rest) = run step (advance step s i) rest := rfl

theorem run_append (s : σ) (a b : List ι) : run step s (a ++ b) = run step (run step s a) b :=
  List.foldl_append ..

theorem advance_cases (step : σ → ι → Except ε σ) (s : σ) (i : ι) :
    advance step s i = s ∨ step s i = .ok (advance step s i) := by
  unfold advance
  cases step s i with
  | error e => exact .inl rfl
  | ok s' => exact .inr rfl

theorem advance_of_ok {s s' : σ} {i : ι} (h : step s i = .ok s') : advance step s i = s' := by
  rw [advance, h]

theorem advance_preserves (hstep : ∀ s i s', P s → step s i = .ok s' → P s') {s : σ} (h : P s)
    (i : ι) : P (advance step s i) := by
  rcases advance_cases step s i with hsame | hnext
  · exact hsame.symm ▸ h
  · exact hstep s i _ h hnext

theorem run_preserves (hstep : ∀ s i s', P s → step s i = .ok s' → P s') {s : σ} (h : P s)
    (inputs : List ι) : P (run step s inputs) := by
  induction inputs generalizing s with
  | nil => exact h
  | cons i rest ih => exact ih (advance_preserves hstep h i)

/-- Every step of the run meets the condition, in the state it is taken in. -/
def Along (step : σ → ι → Except ε σ) (C : σ → ι → Prop) : σ → List ι → Prop
  | _, [] => True
  | s, i :: rest => C s i ∧ Along step C (advance step s i) rest

theorem run_preserves_along {C : σ → ι → Prop} (hstep : ∀ s i s', C s i → P s → step s i = .ok s' → P s')
    {s : σ} (h : P s) {inputs : List ι} (hinputs : Along step C s inputs) : P (run step s inputs) := by
  induction inputs generalizing s with
  | nil => exact h
  | cons i rest ih =>
    obtain ⟨hi, hrest⟩ := hinputs
    have hnext : P (advance step s i) := by
      rcases advance_cases step s i with hsame | hnext
      · exact hsame.symm ▸ h
      · exact hstep s i _ hi h hnext
    exact ih hnext hrest

theorem along_of_forall {C : ι → Prop} {inputs : List ι} (h : ∀ i ∈ inputs, C i) (s : σ) :
    Along step (fun _ i => C i) s inputs := by
  induction inputs generalizing s with
  | nil => trivial
  | cons i rest ih =>
    obtain ⟨hi, hrest⟩ := List.forall_mem_cons.mp h
    exact ⟨hi, ih hrest _⟩

/-- An invariant that only some inputs keep holds after a run of these. -/
theorem run_preserves_of {C : ι → Prop} (hstep : ∀ s i s', C i → P s → step s i = .ok s' → P s') {s : σ}
    (h : P s) {inputs : List ι} (hinputs : ∀ i ∈ inputs, C i) : P (run step s inputs) :=
  run_preserves_along (C := fun _ i => C i) hstep h (along_of_forall hinputs s)

theorem run_relates_along {C : σ → ι → Prop} {R : σ → σ → Prop} (hrefl : ∀ s, R s s)
    (htrans : ∀ a b c, R a b → R b c → R a c)
    (hstep : ∀ s i s', C s i → P s → step s i = .ok s' → P s' ∧ R s s') {s : σ} (h : P s)
    {inputs : List ι} (hinputs : Along step C s inputs) : R s (run step s inputs) := by
  induction inputs generalizing s with
  | nil => exact hrefl s
  | cons i rest ih =>
    obtain ⟨hi, hrest⟩ := hinputs
    have hnext : P (advance step s i) ∧ R s (advance step s i) := by
      rcases advance_cases step s i with hsame | hnext
      · rw [hsame]
        exact ⟨h, hrefl s⟩
      · exact hstep s i _ hi h hnext
    exact htrans _ _ _ hnext.2 (ih hnext.1 hrest)

theorem run_relates {R : σ → σ → Prop} (hrefl : ∀ s, R s s)
    (htrans : ∀ a b c, R a b → R b c → R a c)
    (hstep : ∀ s i s', P s → step s i = .ok s' → P s' ∧ R s s') {s : σ} (h : P s)
    (inputs : List ι) : R s (run step s inputs) :=
  run_relates_along (C := fun _ _ => True) hrefl htrans (fun s i s' _ => hstep s i s') h
    (along_of_forall (fun _ _ => trivial) s)

theorem Along.and {C D : σ → ι → Prop} {s : σ} {inputs : List ι} (hC : Along step C s inputs)
    (hD : Along step D s inputs) : Along step (fun s i => C s i ∧ D s i) s inputs := by
  induction inputs generalizing s with
  | nil => trivial
  | cons i rest ih => exact ⟨⟨hC.1, hD.1⟩, ih hC.2 hD.2⟩

/-- Conditions that agree wherever an invariant holds agree along a run. -/
theorem along_iff {C D : σ → ι → Prop} (hstep : ∀ s i s', P s → step s i = .ok s' → P s')
    (hsame : ∀ s i, P s → (C s i ↔ D s i)) {s : σ} (h : P s) (inputs : List ι) :
    Along step C s inputs ↔ Along step D s inputs := by
  induction inputs generalizing s with
  | nil => exact Iff.rfl
  | cons i rest ih => exact and_congr (hsame s i h) (ih (advance_preserves hstep h i))

theorem exists_of_not_along {C : σ → ι → Prop} {s : σ} {inputs : List ι} (h : ¬Along step C s inputs) :
    ∃ before i after, inputs = before ++ i :: after ∧ ¬C (run step s before) i := by
  induction inputs generalizing s with
  | nil => exact absurd trivial h
  | cons i rest ih =>
    by_cases hi : C s i
    · obtain ⟨before, j, after, hrest, hj⟩ := ih fun hrest => h ⟨hi, hrest⟩
      exact ⟨i :: before, j, after, by rw [hrest]; rfl, hj⟩
    · exact ⟨[], i, rest, rfl, hi⟩

theorem along_append {C : σ → ι → Prop} {s : σ} {a b : List ι} :
    Along step C s (a ++ b) ↔ Along step C s a ∧ Along step C (run step s a) b := by
  induction a generalizing s with
  | nil => simp [Along]
  | cons i rest ih => simp only [List.cons_append, Along, ih, run_cons, and_assoc]

/-- A property a run loses is lost at one of its steps. -/
theorem run_first_loss {Q : σ → Prop} {s : σ} {inputs : List ι} (h : Q s)
    (h' : ¬Q (run step s inputs)) : ∃ before i after, inputs = before ++ i :: after ∧
      Q (run step s before) ∧ ¬Q (advance step (run step s before) i) := by
  induction inputs generalizing s with
  | nil => exact absurd h h'
  | cons i rest ih =>
    by_cases hnext : Q (advance step s i)
    · obtain ⟨before, j, after, hrest, hbefore, hafter⟩ := ih hnext h'
      exact ⟨i :: before, j, after, by rw [hrest]; rfl, hbefore, hafter⟩
    · exact ⟨[], i, rest, rfl, h, hnext⟩

/-- The inputs a run accepts, in their order. -/
def accepted (step : σ → ι → Except ε σ) : σ → List ι → List ι
  | _, [] => []
  | s, i :: rest =>
    match step s i with
    | .ok s' => i :: accepted step s' rest
    | .error _ => accepted step s rest

/-- What a state owes to all that was accepted so far, and every accepted input adds to, it owes to all
that a run accepts. -/
theorem run_accepted {Q : List ι → σ → Prop} (hstep : ∀ past s i s', Q past s → step s i = .ok s' → Q (past ++ [i]) s')
    {past : List ι} {s : σ} (h : Q past s) (inputs : List ι) :
    Q (past ++ accepted step s inputs) (run step s inputs) := by
  induction inputs generalizing past s with
  | nil => simpa [accepted] using h
  | cons i rest ih =>
    rw [run_cons, advance, accepted]
    cases hi : step s i with
    | error e => exact ih h
    | ok s' =>
      have hnext := ih (hstep past s i s' h hi)
      rwa [List.append_assoc] at hnext

/-- What the accepted inputs of a run give out, in their order. -/
def emitted {ω : Type*} (step : σ → ι → Except ε σ) (out : σ → ι → List ω) : σ → List ι → List ω
  | _, [] => []
  | s, i :: rest =>
    match step s i with
    | .ok s' => out s i ++ emitted step out s' rest
    | .error _ => emitted step out s rest

/-- What a state owes to all that was given out so far, and every accepted input adds to, it owes to all
that a run gives out. -/
theorem run_emitted {ω : Type*} {out : σ → ι → List ω} {Q : List ω → σ → Prop}
    (hstep : ∀ past s i s', Q past s → step s i = .ok s' → Q (past ++ out s i) s') {past : List ω} {s : σ}
    (h : Q past s) (inputs : List ι) : Q (past ++ emitted step out s inputs) (run step s inputs) := by
  induction inputs generalizing past s with
  | nil => simpa [emitted] using h
  | cons i rest ih =>
    rw [run_cons, advance, emitted]
    cases hi : step s i with
    | error e => exact ih h
    | ok s' =>
      have hnext := ih (hstep past s i s' h hi)
      rwa [List.append_assoc] at hnext

/-! ### Clocks -/

section Clock
variable {τ : Type*} [Preorder τ] {time : ι → τ}

/-- The inputs come at times that never go back, none before the start. -/
def InOrder (time : ι → τ) : τ → List ι → Prop
  | _, [] => True
  | start, i :: rest => start ≤ time i ∧ InOrder time (time i) rest

/-- An invariant that ages well, and that each step renews at its time, holds after a run
from its last step on. -/
theorem run_preserves_inOrder {P : τ → σ → Prop} (hage : ∀ {t t' s}, t ≤ t' → P t s → P t' s)
    (hstep : ∀ s i s', P (time i) s → step s i = .ok s' → P (time i) s') {start : τ} {s : σ}
    (h : P start s) {inputs : List ι} (horder : InOrder time start inputs) {now : τ} (hstart : start ≤ now)
    (hnow : ∀ i ∈ inputs, time i ≤ now) : P now (run step s inputs) := by
  induction inputs generalizing start s with
  | nil => exact hage hstart h
  | cons i rest ih =>
    obtain ⟨hle, hrest⟩ := horder
    obtain ⟨hi, hall⟩ := List.forall_mem_cons.mp hnow
    have hnext : P (time i) (advance step s i) := by
      rcases advance_cases step s i with hsame | hok
      · exact hsame.symm ▸ hage hle h
      · exact hstep s i _ (hage hle h) hok
    exact ih hnext hrest hi hall

end Clock

/-- How many steps of the run have an effect. -/
def occurrences (step : σ → ι → Except ε σ) (effect : σ → σ → Prop) [DecidableRel effect] :
    σ → List ι → ℕ
  | _, [] => 0
  | s, i :: rest => (if effect s (advance step s i) then 1 else 0) +
      occurrences step effect (advance step s i) rest

section Occurrences
variable {effect : σ → σ → Prop} [DecidableRel effect] {Q : σ → Prop}
  (hstable : ∀ s i, Q s → Q (advance step s i))
  (heffect : ∀ s s', effect s s' → ¬Q s ∧ Q s')
include hstable heffect

theorem occurrences_eq_zero {s : σ} (h : Q s) (inputs : List ι) :
    occurrences step effect s inputs = 0 := by
  induction inputs generalizing s with
  | nil => rfl
  | cons i rest ih =>
    rw [occurrences, if_neg fun he => (heffect _ _ he).1 h, ih (hstable s i h)]

/-- What an effect establishes for good happens at most once. -/
theorem occurrences_le_one (s : σ) (inputs : List ι) : occurrences step effect s inputs ≤ 1 := by
  induction inputs generalizing s with
  | nil => exact Nat.zero_le 1
  | cons i rest ih =>
    rw [occurrences]
    split_ifs with he
    · have hrest := occurrences_eq_zero hstable heffect (heffect _ _ he).2 rest
      omega
    · simpa using ih _

end Occurrences

/-- A run whose steps an invariant lets through is never refused. -/
theorem foldlM_succeeds (hstep : ∀ s i, P s → ∃ s', step s i = .ok s' ∧ P s') {s : σ} (h : P s)
    (inputs : List ι) : ∃ s', inputs.foldlM step s = .ok s' ∧ P s' := by
  induction inputs generalizing s with
  | nil => exact ⟨s, rfl, h⟩
  | cons i rest ih =>
    obtain ⟨s', hs', hP⟩ := hstep s i h
    obtain ⟨t, ht, hPt⟩ := ih hP
    exact ⟨t, by rw [List.foldlM_cons, hs']; exact ht, hPt⟩

end CsMail.Library.Machine
