import Mathlib.Order.Basic
import Mathlib.Order.Lattice
import Mathlib.Order.Monotone.Basic
import Mathlib.Tactic.Common

/-! Gregorian dates, and steps laid end to end.

The calendar is stated by its rules: which years are leap years and how long each month is. Steps
whose ends are the starts of the next leave no gap and share nothing (`existsUnique_step`). -/
namespace CsMail.Library.Calendar

/-! ### The Gregorian calendar -/

/-- Every fourth year is a leap year, but of the centuries only every fourth. -/
def IsLeapYear (year : ℕ) : Prop := 4 ∣ year ∧ (¬100 ∣ year ∨ 400 ∣ year)

instance (year : ℕ) : Decidable (IsLeapYear year) := inferInstanceAs (Decidable (_ ∧ _))

def monthLength (year : ℕ) : ℕ → ℕ
  | 2 => if IsLeapYear year then 29 else 28
  | 4 | 6 | 9 | 11 => 30
  | 1 | 3 | 5 | 7 | 8 | 10 | 12 => 31
  | _ => 0

structure Date where
  year : ℕ
  month : ℕ
  day : ℕ
  deriving DecidableEq

namespace Date

/-- There is such a date. -/
def IsGregorian (d : Date) : Prop := 1 ≤ d.day ∧ d.day ≤ monthLength d.year d.month

instance (d : Date) : Decidable d.IsGregorian := inferInstanceAs (Decidable (_ ∧ _))

/-- Years count first, then months, then days. -/
def Before (d d' : Date) : Prop := d.year < d'.year ∨ d.year = d'.year ∧
  (d.month < d'.month ∨ d.month = d'.month ∧ d.day < d'.day)

theorem before_trichotomy (d d' : Date) : d.Before d' ∨ d = d' ∨ d'.Before d := by
  obtain ⟨year, month, day⟩ := d
  obtain ⟨year', month', day'⟩ := d'
  simp only [Before, mk.injEq]
  omega

end Date

/-! ### Steps -/

variable {α : Type*} [LinearOrder α] {f : ℕ → α} {first last : ℕ}

theorem le_of_steps (hstep : ∀ n, first ≤ n → n ≤ last → f n < f (n + 1)) {m n : ℕ} (hm : first ≤ m)
    (hmn : m ≤ n) (hn : n ≤ last + 1) : f m ≤ f n := by
  induction n, hmn using Nat.le_induction with
  | base => exact le_rfl
  | succ n hmn ih => exact (ih (by omega)).trans (hstep n (by omega) (by omega)).le

/-- **Steps laid end to end tile** what lies between the first and the last. -/
theorem existsUnique_step (hle : first ≤ last) (hstep : ∀ n, first ≤ n → n ≤ last → f n < f (n + 1)) (t : α) :
    (f first ≤ t ∧ t < f (last + 1)) ↔ ∃! n, (first ≤ n ∧ n ≤ last) ∧ f n ≤ t ∧ t < f (n + 1) := by
  constructor
  · rintro ⟨hfirst, hlast⟩
    have hexists : ∃ n, (first ≤ n ∧ n ≤ last) ∧ f n ≤ t ∧ t < f (n + 1) := by
      induction last, hle using Nat.le_induction with
      | base => exact ⟨first, ⟨le_rfl, le_rfl⟩, hfirst, hlast⟩
      | succ last hle ih =>
        by_cases hbefore : t < f (last + 1)
        · obtain ⟨n, ⟨hn, hn'⟩, hstepn⟩ := ih (fun n h h' => hstep n h (by omega)) hbefore
          exact ⟨n, ⟨hn, by omega⟩, hstepn⟩
        · exact ⟨last + 1, ⟨by omega, le_rfl⟩, not_lt.mp hbefore, hlast⟩
    obtain ⟨n, hn, hstepn⟩ := hexists
    refine ⟨n, ⟨hn, hstepn⟩, ?_⟩
    rintro m ⟨hm, hstepm⟩
    -- of two steps the earlier one ends before the later one starts
    rcases Nat.lt_trichotomy m n with hlt | heq | hlt
    · exact absurd (hstepm.2.trans_le (le_of_steps hstep (by omega) hlt (by omega))) (not_lt.mpr hstepn.1)
    · exact heq
    · exact absurd (hstepn.2.trans_le (le_of_steps hstep (by omega) hlt (by omega))) (not_lt.mpr hstepm.1)
  · rintro ⟨n, ⟨hn, hstepn⟩, -⟩
    exact ⟨(le_of_steps hstep le_rfl hn.1 (by omega)).trans hstepn.1,
      hstepn.2.trans_le (le_of_steps hstep (by omega) (by omega) le_rfl)⟩

end CsMail.Library.Calendar
