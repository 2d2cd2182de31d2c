import Mathlib.Algebra.Order.Ring.Nat
import Mathlib.Data.List.Basic
import Mathlib.Data.List.Chain
import Mathlib.Tactic.Common

/-! Slices of sequences whose items have a width.

Offsets count width, so an offset can fall inside an item: such an offset is no boundary, and a
slice that begins or ends there does not exist. Where slices of one sequence are taken in order
and each begins where the ones before it have reached, together they reach as far as the
furthest of them (`gapless`, `furthest`). -/
namespace CsMail.Library.Slices
variable {α : Type*} (width : α → ℕ)

/-- The width of a whole sequence. -/
def extent (l : List α) : ℕ := (l.map width).sum

@[simp] theorem extent_nil : extent width [] = 0 := rfl

@[simp] theorem extent_cons (a : α) (l : List α) : extent width (a :: l) = width a + extent width l := by
  simp [extent]

@[simp] theorem extent_append (l m : List α) :
    extent width (l ++ m) = extent width l + extent width m := by
  simp [extent]

/-- The sequence before an offset, and the sequence from it on. -/
def splitAt? : List α → ℕ → Option (List α × List α)
  | [], n => if n = 0 then some ([], []) else none
  | a :: l, n =>
    if n = 0 then some ([], a :: l)
    else if width a ≤ n then (splitAt? l (n - width a)).map fun (p, q) => (a :: p, q)
    else none

/-- The sequence from one offset up to another. -/
def slice? (l : List α) (start stop : ℕ) : Option (List α) :=
  if start ≤ stop then do
    let (_, rest) ← splitAt? width l start
    let (s, _) ← splitAt? width rest (stop - start)
    some s
  else none

/-- The sequence from an offset on. -/
def from? (l : List α) (start : ℕ) : Option (List α) := (splitAt? width l start).map Prod.snd

variable {width} (hwidth : ∀ a, 0 < width a)
include hwidth

theorem splitAt?_eq_some {l p q : List α} {n : ℕ} :
    splitAt? width l n = some (p, q) ↔ l = p ++ q ∧ extent width p = n := by
  induction l generalizing p n with
  | nil =>
    by_cases hn : n = 0
    · subst hn
      simp only [splitAt?, if_pos, Option.some.injEq, Prod.mk.injEq]
      constructor
      · rintro ⟨rfl, rfl⟩
        exact ⟨rfl, rfl⟩
      · rintro ⟨hnil, -⟩
        exact ⟨(List.append_eq_nil_iff.mp hnil.symm).1.symm, (List.append_eq_nil_iff.mp hnil.symm).2.symm⟩
    · simp only [splitAt?, if_neg hn, reduceCtorEq, false_iff, not_and]
      intro hnil hextent
      rw [(List.append_eq_nil_iff.mp hnil.symm).1] at hextent
      exact hn hextent.symm
  | cons a l ih =>
    by_cases hn : n = 0
    · subst hn
      simp only [splitAt?, if_pos, Option.some.injEq, Prod.mk.injEq]
      constructor
      · rintro ⟨rfl, rfl⟩
        exact ⟨rfl, rfl⟩
      · rintro ⟨hl, hextent⟩
        cases p with
        | nil => exact ⟨rfl, hl⟩
        | cons b p =>
          rw [extent_cons] at hextent
          exact absurd hextent (by have := hwidth b; omega)
    · by_cases hfits : width a ≤ n
      · simp only [splitAt?, if_neg hn, if_pos hfits, Option.map_eq_some_iff, Prod.exists, Prod.mk.injEq]
        constructor
        · rintro ⟨p', q', hsplit, rfl, rfl⟩
          obtain ⟨rfl, hextent⟩ := ih.mp hsplit
          exact ⟨rfl, by rw [extent_cons]; omega⟩
        · rintro ⟨hl, hextent⟩
          cases p with
          | nil => exact absurd hextent.symm hn
          | cons b p =>
            cases hl
            rw [extent_cons] at hextent
            exact ⟨p, q, ih.mpr ⟨rfl, by omega⟩, rfl, rfl⟩
      · simp only [splitAt?, if_neg hn, if_neg hfits, reduceCtorEq, false_iff, not_and]
        intro hl hextent
        cases p with
        | nil => exact hn hextent.symm
        | cons b p =>
          cases hl
          rw [extent_cons] at hextent
          omega

theorem from?_eq_some {l q : List α} {n : ℕ} :
    from? width l n = some q ↔ ∃ p, l = p ++ q ∧ extent width p = n := by
  simp only [from?, Option.map_eq_some_iff, Prod.exists, exists_eq_right]
  exact exists_congr fun p => splitAt?_eq_some hwidth

theorem slice?_eq_some {l s : List α} {start stop : ℕ} : slice? width l start stop = some s ↔
    ∃ p q, l = p ++ (s ++ q) ∧ extent width p = start ∧ start + extent width s = stop := by
  unfold slice?
  by_cases hle : start ≤ stop
  · simp only [if_pos hle, Option.bind_eq_bind, Option.bind_eq_some_iff, Prod.exists, Option.some.injEq,
      splitAt?_eq_some hwidth]
    constructor
    · rintro ⟨p, rest, ⟨rfl, hp⟩, s', q, ⟨rfl, hs⟩, rfl⟩
      exact ⟨p, q, rfl, hp, by omega⟩
    · rintro ⟨p, q, rfl, hp, hs⟩
      exact ⟨p, s ++ q, ⟨rfl, hp⟩, s, q, ⟨rfl, by omega⟩, rfl⟩
  · simp only [if_neg hle, reduceCtorEq, false_iff]
    rintro ⟨p, q, -, -, hs⟩
    omega

/-- Two sequences with one continuation are ordered by their widths. -/
theorem prefix_of_extent {l p q p' q' : List α} (h : l = p ++ q) (h' : l = p' ++ q')
    (hle : extent width p ≤ extent width p') : ∃ m, p' = p ++ m ∧ q = m ++ q' := by
  rcases List.append_eq_append_iff.mp (h.symm.trans h') with ⟨m, hp', hq⟩ | ⟨m, hp, hq'⟩
  · exact ⟨m, hp', hq⟩
  · cases m with
    | nil => exact ⟨[], by rw [hp, List.append_nil, List.append_nil], hq'.symm⟩
    | cons a m =>
      rw [hp, extent_append, extent_cons] at hle
      exact absurd hle (by have := hwidth a; omega)

/-! ### Slices taken in order -/

omit hwidth in
/-- How far the ranges reach, from where they start. -/
def furthest (reached : ℕ) (ranges : List (ℕ × ℕ)) : ℕ :=
  ranges.foldl (fun reached range => max reached range.2) reached

omit hwidth in
/-- Each range begins no later than the ones before it have reached. -/
def gapless : ℕ → List (ℕ × ℕ) → Bool
  | _, [] => true
  | reached, range :: rest => range.1 ≤ reached && gapless (max reached range.2) rest

omit hwidth in
theorem furthest_cons (reached : ℕ) (range : ℕ × ℕ) (rest : List (ℕ × ℕ)) :
    furthest reached (range :: rest) = furthest (max reached range.2) rest := rfl

omit hwidth in
theorem furthest_lt {bound reached : ℕ} {ranges : List (ℕ × ℕ)} (hreached : reached < bound)
    (hranges : ∀ range ∈ ranges, range.2 < bound) : furthest reached ranges < bound := by
  induction ranges generalizing reached with
  | nil => exact hreached
  | cons range rest ih =>
    rw [List.forall_mem_cons] at hranges
    exact ih (Nat.max_lt.mpr ⟨hreached, hranges.1⟩) hranges.2

/-- A slice that begins within a beginning of the sequence agrees with it as far as both go, and
what is left of it continues the beginning up to the slice's end. -/
theorem prefix_append_slice {l t rest s : List α} {start stop : ℕ} (ht : l = t ++ rest)
    (hs : slice? width l start stop = some s) (hle : start ≤ extent width t) :
    ∃ common added : List α, slice? width t start (min (extent width t) stop) = some common ∧
      slice? width s 0 (min (extent width t) stop - start) = some common ∧
      from? width s (min (extent width t) stop - start) = some added ∧
      (∃ rest', l = (t ++ added) ++ rest') ∧ extent width (t ++ added) = max (extent width t) stop := by
  obtain ⟨p, q, hl, rfl, hstop⟩ := (slice?_eq_some hwidth).mp hs
  obtain ⟨m, rfl, hm⟩ := prefix_of_extent hwidth hl ht hle
  rw [extent_append] at hle ⊢
  rcases Nat.le_total (extent width m) (extent width s) with hshort | hlong
  · -- The slice ends at or behind the beginning's end.
    obtain ⟨d, rfl, -⟩ := prefix_of_extent hwidth hm rfl hshort
    rw [extent_append] at hstop
    have hmin : min (extent width p + extent width m) stop = extent width p + extent width m := by omega
    rw [hmin, Nat.add_sub_cancel_left]
    refine ⟨m, d, (slice?_eq_some hwidth).mpr ⟨p, [], by rw [List.append_nil], rfl, rfl⟩,
      (slice?_eq_some hwidth).mpr ⟨[], d, rfl, rfl, by rw [Nat.zero_add]⟩,
      (from?_eq_some hwidth).mpr ⟨m, rfl, rfl⟩, ⟨q, ?_⟩, ?_⟩
    · rw [hl]
      simp only [List.append_assoc]
    · simp only [extent_append]
      omega
  · -- The slice lies inside the beginning.
    obtain ⟨d, rfl, -⟩ := prefix_of_extent hwidth rfl hm hlong
    rw [extent_append]
    have hmin : min (extent width p + (extent width s + extent width d)) stop = extent width p + extent width s := by
      omega
    rw [hmin, Nat.add_sub_cancel_left]
    refine ⟨s, [], (slice?_eq_some hwidth).mpr ⟨p, d, rfl, rfl, rfl⟩,
      (slice?_eq_some hwidth).mpr ⟨[], [], by rw [List.nil_append, List.append_nil], rfl, by rw [Nat.zero_add]⟩,
      (from?_eq_some hwidth).mpr ⟨s, by rw [List.append_nil], rfl⟩, ⟨rest, by rw [List.append_nil]; exact ht⟩, ?_⟩
    rw [List.append_nil, extent_append, extent_append]
    omega

/-! ### Slices taken one behind the other -/

omit hwidth

theorem extent_take_succ {l : List α} {i : ℕ} {a : α} (h : l[i]? = some a) :
    extent width (l.take (i + 1)) = extent width (l.take i) + width a := by
  rw [List.take_add_one, h, Option.toList_some, extent_append, extent_cons, extent_nil, Nat.add_zero]

theorem extent_take_le (l : List α) {i j : ℕ} (h : i ≤ j) :
    extent width (l.take i) ≤ extent width (l.take j) := by
  have hsplit : (l.take j).take i ++ (l.take j).drop i = l.take j := List.take_append_drop ..
  rw [List.take_take, Nat.min_eq_left h] at hsplit
  rw [← hsplit, extent_append]
  exact Nat.le_add_right ..

/-- Ranges that lie one behind the other in a whole. -/
theorem sum_ranges_le {ranges : List (ℕ × ℕ)} {reached n : ℕ} (hreached : reached ≤ n)
    (hranges : ∀ r ∈ ranges, r.1 ≤ r.2 ∧ r.2 ≤ n) (hstart : ∀ r ∈ ranges.head?, reached ≤ r.1)
    (hchain : ranges.IsChain fun r s => r.2 ≤ s.1) :
    reached + (ranges.map fun r => r.2 - r.1).sum ≤ n := by
  induction ranges generalizing reached with
  | nil => exact hreached
  | cons r rest ih =>
    rw [List.forall_mem_cons] at hranges
    have hfirst : reached ≤ r.1 := hstart r rfl
    have hrest := ih hranges.1.2 hranges.2 (fun s hs => hchain.rel_head? hs) hchain.tail
    rw [List.map_cons, List.sum_cons]
    omega

/-- Ranges inside the items of a sequence, each in a later item than the one before it or behind it
in the same, take no more than the whole sequence. -/
theorem ranges_le_extent {items : List α} {ranges : List (ℕ × ℕ × ℕ)}
    (hranges : ∀ r ∈ ranges, ∃ a, items[r.1]? = some a ∧ r.2.1 ≤ r.2.2 ∧ r.2.2 ≤ width a)
    (hchain : ranges.IsChain fun r s => r.1 < s.1 ∨ (r.1 = s.1 ∧ r.2.2 ≤ s.2.1)) :
    (ranges.map fun r => r.2.2 - r.2.1).sum ≤ extent width items := by
  let place (r : ℕ × ℕ × ℕ) : ℕ × ℕ :=
    (extent width (items.take r.1) + r.2.1, extent width (items.take r.1) + r.2.2)
  have hinside : ∀ r ∈ ranges, (place r).2 ≤ extent width (items.take (r.1 + 1)) := by
    intro r hr
    obtain ⟨a, ha, -, hle⟩ := hranges r hr
    rw [extent_take_succ ha]
    exact Nat.add_le_add_left hle _
  have hplaced : ∀ r ∈ ranges.map place, r.1 ≤ r.2 ∧ r.2 ≤ extent width items := by
    intro placed hplaced
    obtain ⟨r, hr, rfl⟩ := List.mem_map.mp hplaced
    obtain ⟨a, -, hle, -⟩ := hranges r hr
    refine ⟨Nat.add_le_add_left hle _, (hinside r hr).trans ?_⟩
    rw [← List.take_append_drop (r.1 + 1) items, extent_append, List.take_append_drop]
    exact Nat.le_add_right ..
  have hordered : (ranges.map place).IsChain fun r s => r.2 ≤ s.1 := by
    refine (List.isChain_map place).mpr (hchain.imp_of_mem_imp fun r s hr hs hrs => ?_)
    rcases hrs with hlt | ⟨heq, hle⟩
    · exact ((hinside r hr).trans (extent_take_le items hlt)).trans (Nat.le_add_right ..)
    · show extent width (items.take r.1) + r.2.2 ≤ extent width (items.take s.1) + s.2.1
      rw [heq]
      exact Nat.add_le_add_left hle _
  have hsum := sum_ranges_le (Nat.zero_le _) hplaced (fun _ _ => Nat.zero_le _) hordered
  rw [List.map_map, Nat.zero_add] at hsum
  have hsizes : (fun r : ℕ × ℕ × ℕ => r.2.2 - r.2.1) = (fun r : ℕ × ℕ => r.2 - r.1) ∘ place := by
    funext r
    exact (Nat.add_sub_add_left ..).symm
  rw [hsizes]
  exact hsum

end CsMail.Library.Slices
