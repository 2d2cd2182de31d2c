import CsMail.Library.SortedMap

/-! Published versions: every version is kept under its number, and one of them is current.

What is published is newer than what is current (`record_ordered`), so the current version is the newest, no
number is used twice, and no version that was published is ever replaced (`Follows`). -/
namespace CsMail.Library
variable {V : Type*} [LinearOrder V] {ρ : Type*}

structure Publications (V : Type*) [LinearOrder V] (ρ : Type*) where
  versions : SortedMap V ρ
  current : Option V

/-- What is filed under its own number: what was, and what took a free one. -/
theorem SortedMap.get?_insert_filed {m : SortedMap V ρ} {number : ρ → V} {r s : ρ} (hfree : m.get? (number r) = none) :
    (m.insert (number r) r).get? (number s) = some s ↔ m.get? (number s) = some s ∨ s = r := by
  rw [SortedMap.get?_insert_eq_some]
  constructor
  · intro h
    rcases h with ⟨-, h⟩ | ⟨-, h⟩
    · exact .inr h
    · exact .inl h
  · intro h
    rcases h with h | rfl
    · refine .inr ⟨fun hv => ?_, h⟩
      rw [hv, hfree] at h
      cases h
    · exact .inl ⟨rfl, rfl⟩

namespace Publications

def empty : Publications V ρ := ⟨∅, none⟩

/-- The version the pointer is at. -/
def latest (p : Publications V ρ) : Option ρ := p.current.bind p.versions.get?

/-- Keeps a version and points at it. -/
def record (p : Publications V ρ) (v : V) (r : ρ) : Publications V ρ := ⟨p.versions.insert v r, some v⟩

@[simp] theorem latest_record (p : Publications V ρ) (v : V) (r : ρ) : (p.record v r).latest = some r :=
  SortedMap.get?_insert_self ..

/-- The pointer is at the newest version, and every version is under its number. -/
structure Ordered (number : ρ → V) (p : Publications V ρ) : Prop where
  filed : ∀ v r, p.versions.get? v = some r → number r = v
  newest : ∀ v r, p.versions.get? v = some r → ∃ c, p.current = some c ∧ v ≤ c
  held : ∀ c, p.current = some c → ∃ r, p.versions.get? c = some r

variable {number : ρ → V} {p : Publications V ρ}

theorem empty_ordered : (empty : Publications V ρ).Ordered number :=
  ⟨nofun, nofun, nofun⟩

theorem latest_eq_some {r : ρ} (h : p.Ordered number) :
    p.latest = some r ↔ p.current = some (number r) ∧ p.versions.get? (number r) = some r := by
  constructor
  · intro hlatest
    obtain ⟨c, hc, hr⟩ := Option.bind_eq_some_iff.mp hlatest
    rw [h.filed c r hr]
    exact ⟨hc, hr⟩
  · intro ⟨hc, hr⟩
    rw [latest, hc]
    exact hr

/-- A number past the newest version's is free. -/
theorem unused_of_newer (h : p.Ordered number) {v : V} (hnewer : ∀ r, p.latest = some r → number r < v) :
    p.versions.get? v = none := by
  cases hv : p.versions.get? v with
  | none => rfl
  | some r =>
    obtain ⟨c, hc, hle⟩ := h.newest v r hv
    obtain ⟨s, hs⟩ := h.held c hc
    have hlt := hnewer s (Option.bind_eq_some_iff.mpr ⟨c, hc, hs⟩)
    rw [h.filed c s hs] at hlt
    exact absurd hle (not_le.mpr hlt)

theorem record_ordered (h : p.Ordered number) {r : ρ} (hnewer : ∀ old, p.latest = some old → number old < number r) :
    (p.record (number r) r).Ordered number := by
  constructor
  · intro v s hs
    rcases SortedMap.get?_insert_eq_some.mp hs with ⟨hv, hr⟩ | ⟨-, hs⟩
    · rw [hv, hr]
    · exact h.filed v s hs
  · intro v s hs
    refine ⟨number r, rfl, ?_⟩
    rcases SortedMap.get?_insert_eq_some.mp hs with ⟨hv, -⟩ | ⟨-, hs⟩
    · exact hv.le
    · obtain ⟨c, hc, hle⟩ := h.newest v s hs
      obtain ⟨old, hold⟩ := h.held c hc
      have hlt := hnewer old (Option.bind_eq_some_iff.mpr ⟨c, hc, hold⟩)
      rw [h.filed c old hold] at hlt
      exact hle.trans hlt.le
  · intro c hc
    cases hc
    exact ⟨r, SortedMap.get?_insert_self ..⟩

/-- Nothing that was published is replaced, and the pointer only moves forward. -/
structure Follows (p q : Publications V ρ) : Prop where
  kept : ∀ v r, p.versions.get? v = some r → q.versions.get? v = some r
  forward : ∀ c, p.current = some c → ∃ c', q.current = some c' ∧ c ≤ c'

theorem follows_refl (p : Publications V ρ) : p.Follows p := ⟨fun _ _ h => h, fun c h => ⟨c, h, le_rfl⟩⟩

theorem Follows.trans {a b c : Publications V ρ} (h : a.Follows b) (h' : b.Follows c) : a.Follows c := by
  refine ⟨fun v r hr => h'.kept v r (h.kept v r hr), fun i hi => ?_⟩
  obtain ⟨j, hj, hij⟩ := h.forward i hi
  obtain ⟨k, hk, hjk⟩ := h'.forward j hj
  exact ⟨k, hk, hij.trans hjk⟩

theorem record_follows (h : p.Ordered number) {r : ρ} (hnewer : ∀ old, p.latest = some old → number old < number r) :
    p.Follows (p.record (number r) r) := by
  have hunused := unused_of_newer h hnewer
  refine ⟨fun v s hs => ?_, fun c hc => ?_⟩
  · by_cases hv : v = number r
    · rw [hv, hunused] at hs
      cases hs
    · exact (SortedMap.get?_insert_ne _ _ hv).trans hs
  · obtain ⟨old, hold⟩ := h.held c hc
    have hlt := hnewer old (Option.bind_eq_some_iff.mpr ⟨c, hc, hold⟩)
    rw [h.filed c old hold] at hlt
    exact ⟨number r, rfl, hlt.le⟩

end Publications

end CsMail.Library
