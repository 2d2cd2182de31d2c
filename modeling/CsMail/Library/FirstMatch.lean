import Mathlib.Data.List.Basic
import Mathlib.Tactic.Common

/-! Changing the first element of a list that meets a condition.

A list is split where the condition is met first (`modifyFirst_cases`). What the change keeps of
the element it keeps of the list. -/
namespace CsMail.Library
universe u v
variable {α : Type u} {β : Type v}

def modifyFirst (p : α → Bool) (f : α → α) : List α → List α
  | [] => []
  | a :: rest => if p a then f a :: rest else a :: modifyFirst p f rest

variable {p : α → Bool} {f : α → α} {l : List α}

theorem modifyFirst_cases (p : α → Bool) (f : α → α) (l : List α) :
    (∃ before a rest, l = before ++ a :: rest ∧ p a = true ∧ (∀ b ∈ before, p b = false) ∧
      modifyFirst p f l = before ++ f a :: rest) ∨
    ((∀ a ∈ l, p a = false) ∧ modifyFirst p f l = l) := by
  induction l with
  | nil => exact .inr ⟨by simp, rfl⟩
  | cons a rest ih =>
    by_cases ha : p a = true
    · exact .inl ⟨[], a, rest, rfl, ha, by simp, if_pos ha⟩
    · rw [Bool.not_eq_true] at ha
      have hstep : modifyFirst p f (a :: rest) = a :: modifyFirst p f rest := by simp [modifyFirst, ha]
      rw [hstep]
      rcases ih with ⟨before, b, after, rfl, hb, hbefore, hsame⟩ | ⟨hnone, hsame⟩
      · exact .inl ⟨a :: before, b, after, rfl, hb, List.forall_mem_cons.mpr ⟨ha, hbefore⟩, by rw [hsame]; rfl⟩
      · exact .inr ⟨List.forall_mem_cons.mpr ⟨ha, hnone⟩, by rw [hsame]⟩

theorem modifyFirst_eq_self (h : ∀ a ∈ l, p a = false) : modifyFirst p f l = l := by
  rcases modifyFirst_cases p f l with ⟨before, a, rest, rfl, ha, -⟩ | ⟨-, hsame⟩
  · have hnone := h a (by simp)
    rw [ha] at hnone
    cases hnone
  · exact hsame

/-- Where just one element meets the condition, that one is changed. -/
theorem modifyFirst_eq_map (hone : l.Pairwise fun a b => ¬(p a = true ∧ p b = true)) :
    modifyFirst p f l = l.map fun a => if p a then f a else a := by
  induction l with
  | nil => rfl
  | cons a rest ih =>
    rw [List.pairwise_cons] at hone
    rw [modifyFirst, List.map_cons]
    by_cases ha : p a = true
    · rw [if_pos ha, if_pos ha, ← List.map_id rest, List.map_map]
      congr 1
      refine List.map_congr_left fun b hb => ?_
      rw [Function.comp_apply, id, if_neg fun hp => hone.1 b hb ⟨ha, hp⟩]
    · rw [if_neg ha, if_neg ha, ih hone.2]

/-- What the change keeps of the elements it keeps of the list. -/
theorem map_modifyFirst {g : α → β} (h : ∀ a ∈ l, p a = true → g (f a) = g a) :
    (modifyFirst p f l).map g = l.map g := by
  rcases modifyFirst_cases p f l with ⟨before, a, rest, rfl, ha, -, hsame⟩ | ⟨-, hsame⟩
  · rw [hsame, List.map_append, List.map_append, List.map_cons, List.map_cons, h a (by simp) ha]
  · rw [hsame]

end CsMail.Library
