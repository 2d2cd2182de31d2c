import CsMail.Library.Machine

/-! Methods that change their receiver in place.

Such a method leaves a value behind even when it is refused, so what a refusal leaves has
to be proved. A method that makes its checks before its first assignment computes a
function that refuses (`Computes`): it does what the function says, and a refusal leaves
the receiver as it was. A sequence of calls of such methods is a run of a machine that
refuses (`calls_eq_run`). -/
namespace CsMail.Library

abbrev InPlace (σ ε α : Type) := ExceptT ε (StateM σ) α

namespace InPlace
variable {σ ε α β : Type}

/-- What a call returns, and the value it leaves behind. -/
def on (m : InPlace σ ε α) (s : σ) : Except ε α × σ := StateT.run (ExceptT.run m) s

/-- What a function that refuses makes of the receiver. -/
def outcome (s : σ) : Except ε (σ × α) → Except ε α × σ
  | .ok (s', a) => (.ok a, s')
  | .error e => (.error e, s)

/-- The method does what the function says, and leaves the receiver alone if it is refused. -/
def Computes (m : InPlace σ ε α) (f : σ → Except ε (σ × α)) : Prop := ∀ s, m.on s = outcome s (f s)

theorem Computes.refused {m : InPlace σ ε α} {f : σ → Except ε (σ × α)} (h : m.Computes f) {s s' : σ}
    {e : ε} (he : m.on s = (.error e, s')) : s' = s := by
  rw [h s] at he
  cases hf : f s with
  | ok r =>
    rw [hf] at he
    cases he
  | error e' =>
    rw [hf] at he
    cases he
    rfl

theorem Computes.accepted {m : InPlace σ ε α} {f : σ → Except ε (σ × α)} (h : m.Computes f) {s s' : σ}
    {a : α} (ha : m.on s = (.ok a, s')) : f s = .ok (s', a) := by
  rw [h s] at ha
  cases hf : f s with
  | ok r =>
    rw [hf] at ha
    cases ha
    rfl
  | error e =>
    rw [hf] at ha
    cases ha

theorem on_map (m : InPlace σ ε α) (g : α → β) (s : σ) :
    (g <$> m).on s = ((m.on s).1.map g, (m.on s).2) := by
  show StateT.run (ExceptT.run (g <$> m)) s = _
  rw [ExceptT.run_map, StateT.run_map]
  rfl

/-- A method that only passes on what another returns. -/
theorem Computes.map {m : InPlace σ ε α} {f : σ → Except ε (σ × α)} (h : m.Computes f) (g : α → β) :
    (g <$> m).Computes fun s => (f s).map fun r => (r.1, g r.2) := by
  intro s
  rw [on_map, h s]
  show _ = outcome s ((f s).map fun r => (r.1, g r.2))
  rcases f s with e | ⟨s', a⟩ <;> rfl

/-- A check: nothing is assigned yet, so its refusal leaves the receiver alone. -/
theorem on_check {x : Except ε β} {k : β → InPlace σ ε α} {f : β → Except ε (σ × α)} {s : σ}
    (h : ∀ b, x = .ok b → (k b).on s = outcome s (f b)) :
    (((liftM x : InPlace σ ε β)) >>= k).on s = outcome s (x >>= f) := by
  cases x with
  | ok b => exact h b rfl
  | error e => rfl

theorem on_ite {c : Prop} [Decidable c] {m m' : InPlace σ ε α} {x x' : Except ε (σ × α)} {s : σ}
    (h : c → m.on s = outcome s x) (h' : ¬c → m'.on s = outcome s x') :
    (if c then m else m').on s = outcome s (if c then x else x') := by
  split_ifs with hc
  · exact h hc
  · exact h' hc

theorem on_get {k : σ → InPlace σ ε α} {s : σ} : ((get : InPlace σ ε σ) >>= k).on s = (k s).on s := rfl

/-- A check that passes. -/
theorem on_pass {x : Except ε β} {b : β} {k : β → InPlace σ ε α} {s : σ} (h : x = .ok b) :
    (((liftM x : InPlace σ ε β)) >>= k).on s = (k b).on s := by
  rw [h]
  rfl

/-- A check that does not. -/
theorem on_refuse {x : Except ε β} {e : ε} {k : β → InPlace σ ε α} {s : σ} (h : x = .error e) :
    (((liftM x : InPlace σ ε β)) >>= k).on s = (.error e, s) := by
  rw [h]
  rfl

/-! ### What an accepted call did -/

section
variable {s s' : σ} {a : α}

@[simp] theorem on_pure {b : α} : (pure b : InPlace σ ε α).on s = (.ok a, s') ↔ b = a ∧ s = s' := by
  show ((Except.ok b, s) : Except ε α × σ) = _ ↔ _
  simp

@[simp] theorem on_throw {e : ε} : (throw e : InPlace σ ε α).on s = (.ok a, s') ↔ False := by
  show ((Except.error e, s) : Except ε α × σ) = _ ↔ _
  simp

@[simp] theorem on_lift {x : Except ε α} :
    (liftM x : InPlace σ ε α).on s = (.ok a, s') ↔ x = .ok a ∧ s = s' := by
  show (x, s) = _ ↔ _
  simp

@[simp] theorem on_read {t : σ} : (get : InPlace σ ε σ).on s = (.ok t, s') ↔ s = t ∧ s = s' := by
  show ((Except.ok s, s) : Except ε σ × σ) = _ ↔ _
  simp

@[simp] theorem on_modify {f : σ → σ} {u : PUnit} :
    (modify f : InPlace σ ε PUnit).on s = (.ok u, s') ↔ f s = s' := by
  show ((Except.ok PUnit.unit, f s) : Except ε PUnit × σ) = _ ↔ _
  simp

theorem on_bind_eq {m : InPlace σ ε β} {k : β → InPlace σ ε α} :
    (m >>= k).on s = match m.on s with
      | (.ok b, t) => (k b).on t
      | (.error e, t) => (.error e, t) := by
  show StateT.run (ExceptT.run (m >>= k)) s = _
  rw [ExceptT.run_bind, StateT.run_bind]
  show _ = match StateT.run (ExceptT.run m) s with
    | (.ok b, t) => (k b).on t
    | (.error e, t) => (.error e, t)
  rcases StateT.run (ExceptT.run m) s with ⟨e | b, t⟩ <;> rfl

@[simp] theorem on_bind {m : InPlace σ ε β} {k : β → InPlace σ ε α} :
    (m >>= k).on s = (.ok a, s') ↔ ∃ b t, m.on s = (.ok b, t) ∧ (k b).on t = (.ok a, s') := by
  rw [on_bind_eq]
  rcases m.on s with ⟨e | b, t⟩ <;> simp

end

/-! ### Atomic methods -/

/-- A method that has changed nothing when it is refused. -/
def Atomic (m : InPlace σ ε α) : Prop := ∀ s e s', m.on s = (.error e, s') → s' = s

/-- A method that only assigns. -/
def Assigns (m : InPlace σ ε α) : Prop := ∀ s, ∃ a s', m.on s = (.ok a, s')

namespace Assigns

theorem pure (a : α) : (Pure.pure a : InPlace σ ε α).Assigns := fun s => ⟨a, s, rfl⟩

theorem assign {k : PUnit → InPlace σ ε α} (f : σ → σ) (h : (k ⟨⟩).Assigns) :
    ((modify f : InPlace σ ε PUnit) >>= k).Assigns := fun s => h (f s)

theorem assign_last (f : σ → σ) : (modify f : InPlace σ ε PUnit).Assigns := fun s => ⟨⟨⟩, f s, rfl⟩

theorem atomic {m : InPlace σ ε α} (h : m.Assigns) : m.Atomic := by
  intro s e s' he
  obtain ⟨a, t, ha⟩ := h s
  rw [ha] at he
  cases he

end Assigns

namespace Atomic
variable {m m' : InPlace σ ε α}

theorem throw (e : ε) : (MonadExcept.throw e : InPlace σ ε α).Atomic := by
  intro s e' s' h
  cases h
  rfl

/-- A check: what is refused there has changed nothing yet. -/
theorem check {x : Except ε β} {k : β → InPlace σ ε α} (h : ∀ b, x = .ok b → (k b).Atomic) :
    (((liftM x : InPlace σ ε β)) >>= k).Atomic := by
  cases x with
  | ok b => exact h b rfl
  | error e => exact throw e

theorem get {k : σ → InPlace σ ε α} (h : ∀ s, (k s).Atomic) :
    ((MonadState.get : InPlace σ ε σ) >>= k).Atomic := fun s => h s s

theorem ite {c : Prop} [Decidable c] (h : c → m.Atomic) (h' : ¬c → m'.Atomic) :
    (if c then m else m').Atomic := by
  split_ifs with hc
  · exact h hc
  · exact h' hc

theorem bind {m : InPlace σ ε β} {k : β → InPlace σ ε α} (hm : m.Atomic) (hk : ∀ b, (k b).Assigns) :
    (m >>= k).Atomic := by
  intro s e s' h
  rw [on_bind_eq] at h
  rcases hb : m.on s with ⟨e' | b, t⟩
  · rw [hb] at h
    cases h
    exact hm s e _ hb
  · rw [hb] at h
    obtain ⟨a, t', ha⟩ := hk b t
    simp only [ha] at h
    cases h

end Atomic

/-! ### Sequences of calls -/

/-- What a call leaves of the receiver, also if it is refused. -/
def after (m : InPlace σ ε α) (s : σ) : σ := (m.on s).2

/-- What an accepted call makes of the receiver. -/
def accepted (m : InPlace σ ε α) (s : σ) : Except ε σ :=
  match m.on s with
  | (.ok _, s') => .ok s'
  | (.error e, _) => .error e

theorem accepted_eq_ok {m : InPlace σ ε α} {s s' : σ} :
    m.accepted s = .ok s' ↔ ∃ a, m.on s = (.ok a, s') := by
  unfold accepted
  rcases m.on s with ⟨e | a, t⟩ <;> simp

section
variable {ι : Type} {method : ι → InPlace σ ε α}

def calls (method : ι → InPlace σ ε α) (s : σ) (inputs : List ι) : σ :=
  inputs.foldl (fun s i => (method i).after s) s

theorem Atomic.after_eq {i : ι} (h : (method i).Atomic) (s : σ) :
    (method i).after s = Machine.advance (fun s i => (method i).accepted s) s i := by
  simp only [after, Machine.advance, accepted]
  rcases hm : (method i).on s with ⟨e | a, t⟩
  · exact h s e t hm
  · rfl

theorem calls_eq_run (h : ∀ i, (method i).Atomic) (s : σ) (inputs : List ι) :
    calls method s inputs = Machine.run (fun s i => (method i).accepted s) s inputs := by
  induction inputs generalizing s with
  | nil => rfl
  | cons i rest ih =>
    rw [Machine.run_cons, ← ih, ← (h i).after_eq s]
    rfl

/-- What the accepted calls returned, in their order. -/
def returned (method : ι → InPlace σ ε α) : σ → List ι → List α
  | _, [] => []
  | s, i :: rest => ((method i).on s).1.toOption.toList ++ returned method ((method i).after s) rest

/-- Where each call returns what it adds to an account of the receiver, the returns of a run
are what the run adds. -/
theorem calls_returned {P : σ → Prop} {T : σ → List β} {f : α → List β} (h : ∀ i, (method i).Atomic)
    (hstep : ∀ s i a s', P s → (method i).on s = (.ok a, s') → P s' ∧ T s' = T s ++ f a) {s : σ}
    (hs : P s) (inputs : List ι) : P (calls method s inputs) ∧
      T (calls method s inputs) = T s ++ (returned method s inputs).flatMap f := by
  induction inputs generalizing s with
  | nil => exact ⟨hs, (List.append_nil _).symm⟩
  | cons i rest ih =>
    have hnext : P ((method i).after s) ∧ T ((method i).after s) =
        T s ++ ((method i).on s).1.toOption.toList.flatMap f := by
      rcases hm : (method i).on s with ⟨e | a, t⟩
      · rw [after, hm, h i s e t hm]
        exact ⟨hs, (List.append_nil _).symm⟩
      · rw [after, hm]
        exact ⟨(hstep s i a t hs hm).1, (hstep s i a t hs hm).2.trans (by simp [Except.toOption])⟩
    obtain ⟨hP, hadds⟩ := ih hnext.1
    refine ⟨hP, hadds.trans ?_⟩
    rw [hnext.2, returned, List.flatMap_append, List.append_assoc]

end

end InPlace
end CsMail.Library
