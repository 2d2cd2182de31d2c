import Mathlib.Data.List.Induction
import Mathlib.Tactic.Common

/-! Logs whose entries are chained by their digests.

An entry is sealed at its position by the digest of the entry before it. A log is linked
when every entry is (`Linked`), and stays linked when a sealed entry is appended. -/
namespace CsMail.Library.HashChain
variable {δ ε : Type*}

/-- The digest a next entry has to build on. -/
def tip (digest : ε → δ) (start : δ) : List ε → δ
  | [] => start
  | e :: rest => tip digest (digest e) rest

/-- Every entry is sealed where it stands, from the position and the digest given. -/
def Linked (sealed : ℕ → δ → ε → Prop) (digest : ε → δ) : ℕ → δ → List ε → Prop
  | _, _, [] => True
  | position, previous, e :: rest =>
    sealed position previous e ∧ Linked sealed digest (position + 1) (digest e) rest

variable {sealed : ℕ → δ → ε → Prop} {digest : ε → δ}

theorem tip_append (start : δ) (log : List ε) (e : ε) :
    tip digest start (log ++ [e]) = digest e := by
  induction log generalizing start with
  | nil => rfl
  | cons head rest ih => exact ih (digest head)

theorem tip_eq (start : δ) (log : List ε) :
    tip digest start log = (log.getLast?.map digest).getD start := by
  induction log using List.reverseRecOn with
  | nil => rfl
  | append_singleton log e => rw [tip_append, List.getLast?_concat, Option.map_some, Option.getD_some]

theorem linked_append {position : ℕ} {previous : δ} {log : List ε} {e : ε} :
    Linked sealed digest position previous (log ++ [e]) ↔ Linked sealed digest position previous log ∧
      sealed (position + log.length) (tip digest previous log) e := by
  induction log generalizing position previous with
  | nil => simp [Linked, tip]
  | cons head rest ih =>
    rw [List.cons_append, Linked, Linked, ih, tip, List.length_cons, and_assoc,
      Nat.add_right_comm position 1, Nat.add_assoc]

theorem linked_of_append {position : ℕ} {previous : δ} {log more : List ε}
    (h : Linked sealed digest position previous (log ++ more)) : Linked sealed digest position previous log := by
  induction more using List.reverseRecOn with
  | nil => rwa [List.append_nil] at h
  | append_singleton more e ih =>
    rw [← List.append_assoc] at h
    exact ih (linked_append.mp h).1

/-- A digest tells what was sealed, what it was sealed behind, and whether it came first. -/
def Tells (sealed : ℕ → δ → ε → Prop) (first : ℕ) (e e' : ε) : Prop :=
  ∀ ⦃n n' d d'⦄, sealed n d e → sealed n' d' e' → e = e' ∧ d = d' ∧ (n = first ↔ n' = first)

/-- **The last digest fixes the whole log**, where digests tell what was sealed. -/
theorem linked_unique {position : ℕ} {previous : δ} {log log' : List ε}
    (h : Linked sealed digest position previous log) (h' : Linked sealed digest position previous log')
    (htells : ∀ e ∈ log, ∀ e' ∈ log', digest e = digest e' → Tells sealed position e e')
    (hlast : log.getLast?.map digest = log'.getLast?.map digest) : log = log' := by
  -- backwards: the last entries agree, and so do the digests they are sealed behind
  induction log using List.reverseRecOn generalizing log' with
  | nil =>
    rw [List.getLast?_nil, Option.map_none, eq_comm, Option.map_eq_none_iff, List.getLast?_eq_none_iff] at hlast
    exact hlast.symm
  | append_singleton log e ih =>
    cases log' using List.reverseRecOn with
    | nil =>
      rw [List.getLast?_concat] at hlast
      cases hlast
    | append_singleton log' e' =>
      rw [List.getLast?_concat, List.getLast?_concat] at hlast
      obtain ⟨hlog, hsealed⟩ := linked_append.mp h
      obtain ⟨hlog', hsealed'⟩ := linked_append.mp h'
      obtain ⟨rfl, htip, hfirst⟩ := htells e (by simp) e' (by simp) (Option.some.inj hlast) hsealed hsealed'
      have hnil : log = [] ↔ log' = [] := by
        rw [← List.length_eq_zero_iff, ← List.length_eq_zero_iff]
        omega
      have hrest : log.getLast?.map digest = log'.getLast?.map digest := by
        by_cases hlogNil : log = []
        · rw [hlogNil, hnil.mp hlogNil]
        · rw [tip_eq, tip_eq, List.getLast?_eq_some_getLast hlogNil,
            List.getLast?_eq_some_getLast (hnil.not.mp hlogNil)] at htip
          rw [List.getLast?_eq_some_getLast hlogNil, List.getLast?_eq_some_getLast (hnil.not.mp hlogNil)]
          exact congrArg some htip
      rw [ih hlog hlog' (fun x hx y hy => htells x (List.mem_append_left _ hx) y (List.mem_append_left _ hy)) hrest]

/-- A log whose last entry stands in another, as its digest tells, is the other up to there. -/
theorem linked_prefix {position : ℕ} {previous : δ} {log log' : List ε}
    (h : Linked sealed digest position previous log) (h' : Linked sealed digest position previous log')
    (htells : ∀ e ∈ log, ∀ e' ∈ log', digest e = digest e' → Tells sealed position e e')
    {e : ε} (he : e ∈ log') (hlast : log.getLast?.map digest = some (digest e)) : log <+: log' := by
  obtain ⟨before, after, rfl⟩ := List.append_of_mem he
  rw [← List.singleton_append, ← List.append_assoc] at h' htells ⊢
  rw [linked_unique h (linked_of_append h')
    (fun x hx y hy => htells x hx y (List.mem_append_left _ hy)) (by rw [hlast, List.getLast?_concat]; rfl)]
  exact List.prefix_append ..

end CsMail.Library.HashChain
