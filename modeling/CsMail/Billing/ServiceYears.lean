import CsMail.Billing.ServiceProofs
import CsMail.Library.Calendar
import Mathlib.Tactic.IntervalCases

/-! Service years lie end to end.

A date's instant counts the days of the years before it, of the months before it and of the month up
to it, so it grows with the date (`calendarDate_strict`). A service year begins on the day of its
anchor and ends where the next begins, a year of days later; where the anchor is February 29, the
stand-in of a common year moves that by one day at most (`ServicePeriod.length`). -/
namespace CsMail
open Library Library.Calendar

/-! ### Calendar dates -/

theorem isLeap_iff {year : ℕ} : isLeap year = true ↔ IsLeapYear year := by
  rw [isLeap, IsLeapYear, decide_eq_true_iff, Nat.dvd_iff_mod_eq_zero, Nat.dvd_iff_mod_eq_zero,
    Nat.dvd_iff_mod_eq_zero]

theorem monthDays_eq {year month : ℕ} (h : 1 ≤ month ∧ month ≤ 12) :
    (monthDays (isLeap year)).getD (month - 1) 0 = monthLength year month := by
  obtain ⟨hlow, hhigh⟩ := h
  have hleap : (if isLeap year = true then 29 else 28) = if IsLeapYear year then 29 else 28 := by
    simp only [isLeap_iff]
  interval_cases month <;> first | rfl | exact hleap

theorem monthLength_eq_zero {year month : ℕ} (h : ¬(1 ≤ month ∧ month ≤ 12)) : monthLength year month = 0 := by
  unfold monthLength
  split <;> first | rfl | omega

/-- A date of the program, as a date of the calendar. -/
def dateOf (year : U16) (month day : Fin (2 ^ 8)) : Date := ⟨year.val, month.val, day.val⟩

/-- Exactly the Gregorian dates of the supported years are accepted. -/
theorem calendarDate_isSome {year : U16} {month day : Fin (2 ^ 8)} :
    (calendarDate year month day).isSome = true ↔
      (1970 ≤ year.val ∧ year.val ≤ 9999) ∧ (dateOf year month day).IsGregorian := by
  unfold calendarDate Date.IsGregorian dateOf
  dsimp only
  by_cases hrange : ¬(1970 ≤ year.val ∧ year.val ≤ 9999) ∨ ¬(1 ≤ month.val ∧ month.val ≤ 12)
  · rw [dif_pos hrange]
    refine iff_of_false Bool.false_ne_true fun ⟨hyear, hday, hlength⟩ => ?_
    rw [monthLength_eq_zero (hrange.resolve_left (not_not.mpr hyear))] at hlength
    omega
  · rw [dif_neg hrange]
    rw [not_or, not_not, not_not] at hrange
    rw [monthDays_eq hrange.2]
    by_cases hday : day.val = 0 ∨ monthLength year.val month.val < day.val
    · rw [if_pos hday]
      exact iff_of_false Bool.false_ne_true fun ⟨_, hlow, hhigh⟩ => by omega
    · rw [if_neg hday]
      exact iff_of_true rfl ⟨hrange.1, by omega, by omega⟩

/-- The day of a year that a date is. -/
def dayOfYear (leap : Bool) (month day : ℕ) : ℕ := ((monthDays leap).take (month - 1)).sum + (day - 1)

theorem calendarDate_eq_some {year : U16} {month day : Fin (2 ^ 8)} {t : CanonicalTime}
    (h : calendarDate year month day = some t) : (1 ≤ month.val ∧ month.val ≤ 12) ∧ 1 ≤ day.val ∧
      day.val ≤ (monthDays (isLeap year.val)).getD (month.val - 1) 0 ∧
      t.millis = (daysBefore year.val + dayOfYear (isLeap year.val) month.val day.val) * dayMillis := by
  unfold calendarDate at h
  split_ifs at h with hrange hday
  cases h
  rw [not_or, not_not, not_not] at hrange
  refine ⟨hrange.2, by omega, by omega, ?_⟩
  rw [dayOfYear, ← Nat.add_assoc]
  rfl

theorem sum_take_le {l : List ℕ} {k k' : ℕ} (h : k < k') : (l.take k).sum + l.getD k 0 ≤ (l.take k').sum := by
  induction l generalizing k k' with
  | nil => simp
  | cons x rest ih =>
    obtain ⟨k', rfl⟩ := Nat.exists_eq_succ_of_ne_zero (Nat.ne_zero_of_lt h)
    cases k with
    | zero => simp
    | succ k =>
      have := ih (Nat.lt_of_succ_lt_succ h)
      simp only [List.take_succ_cons, List.sum_cons, List.getD_cons_succ]
      omega

theorem calendarDate_lt {year year' : U16} {month day month' day' : Fin (2 ^ 8)} {t t' : CanonicalTime}
    (h : calendarDate year month day = some t) (h' : calendarDate year' month' day' = some t')
    (hbefore : (dateOf year month day).Before (dateOf year' month' day')) : t < t' := by
  rw [CanonicalTime.lt_iff_millis]
  obtain ⟨hmonth, hday, hlength, ht⟩ := calendarDate_eq_some h
  obtain ⟨hmonth', hday', hlength', ht'⟩ := calendarDate_eq_some h'
  rcases hbefore with hyear | ⟨hyear, hrest⟩
  · obtain ⟨hlow, -, hend⟩ := calendarDate_bounds h
    obtain ⟨-, hstart, -⟩ := calendarDate_bounds h'
    have hyears : daysBefore (year.val + 1) ≤ daysBefore year'.val := by
      rcases Nat.lt_or_eq_of_le (show year.val + 1 ≤ year'.val from hyear) with hlt | heq
      · exact (daysBefore_strictMono (by omega) hlt).le
      · rw [heq]
    exact hend.trans_le ((Nat.mul_le_mul_right _ hyears).trans hstart)
  · replace hyear : year.val = year'.val := hyear
    rw [ht, ht', hyear]
    rw [hyear] at hlength
    refine Nat.mul_lt_mul_of_pos_right (Nat.add_lt_add_left ?_ _) (by decide)
    unfold dayOfYear
    rcases hrest with hmonths | ⟨hmonths, hdays⟩
    · replace hmonths : month.val < month'.val := hmonths
      have := sum_take_le (l := monthDays (isLeap year'.val)) (show month.val - 1 < month'.val - 1 by omega)
      omega
    · replace hmonths : month.val = month'.val := hmonths
      replace hdays : day.val < day'.val := hdays
      rw [hmonths]
      omega

/-- Instants order dates as the calendar does. -/
theorem calendarDate_strict {year year' : U16} {month day month' day' : Fin (2 ^ 8)} {t t' : CanonicalTime}
    (h : calendarDate year month day = some t) (h' : calendarDate year' month' day' = some t') :
    (dateOf year month day).Before (dateOf year' month' day') ↔ t < t' := by
  refine ⟨calendarDate_lt h h', fun hlt => ?_⟩
  rcases Date.before_trichotomy (dateOf year month day) (dateOf year' month' day') with hb | heq | hb
  · exact hb
  · obtain ⟨hyear, hmonth, hday⟩ := (Date.mk.injEq ..).mp heq
    rw [Fin.ext hyear, Fin.ext hmonth, Fin.ext hday] at h
    cases h.symm.trans h'
    exact absurd hlt (lt_irrefl _)
  · exact absurd hlt (calendarDate_lt h' h hb).asymm

/-! ### Anchors -/

/-- A leap day moves what comes behind it by one day. -/
theorem dayOfYear_leap (month day : ℕ) : dayOfYear true month day = dayOfYear false month day ∨
    dayOfYear true month day = dayOfYear false month day + 1 := by
  unfold dayOfYear monthDays
  cases month - 1 with
  | zero => exact .inl rfl
  | succ k =>
    cases k with
    | zero => exact .inl rfl
    | succ k =>
      right
      simp only [List.take_succ_cons, List.sum_cons, if_true, Bool.false_eq_true, if_false]
      omega

namespace PeriodAnchor

/-- The day of a year on which the anchor falls, with the stand-in for a missing February 29. -/
def offset (a : PeriodAnchor) (leap : Bool) : ℕ :=
  if a.month = 2 ∧ a.day = 29 ∧ leap = false then
    match a.leapDay with
    | .february28 => 58
    | .march1 => 59
  else dayOfYear leap a.month.val a.day.val

/-- Leap years differ from common years by a day at most. -/
theorem offset_leap (a : PeriodAnchor) :
    a.offset true = a.offset false ∨ a.offset true = a.offset false + 1 := by
  unfold offset
  rw [if_neg (by simp)]
  by_cases hleap : a.month = 2 ∧ a.day = 29
  · rw [if_pos ⟨hleap.1, hleap.2, rfl⟩, hleap.1, hleap.2]
    cases a.leapDay
    · exact .inr (by decide)
    · exact .inl (by decide)
  · rw [if_neg fun h => hleap ⟨h.1, h.2.1⟩]
    exact dayOfYear_leap _ _

theorem date_year {a : PeriodAnchor} {year : U16} {t : CanonicalTime} (h : a.date year = .ok t) :
    1970 ≤ year.val ∧ year.val ≤ 9999 := by
  obtain ⟨month, day, hdate⟩ := date_eq_ok h
  exact (calendarDate_isSome.mp (Option.isSome_iff_exists.mpr ⟨t, hdate⟩)).1

theorem date_millis {a : PeriodAnchor} {year : U16} {t : CanonicalTime} (h : a.date year = .ok t) :
    t.millis = (daysBefore year.val + a.offset (isLeap year.val)) * dayMillis := by
  have hor := okOr_eq_ok.mp h
  unfold offset
  cases hdate : calendarDate year a.month a.day with
  | some t' =>
    rw [hdate] at hor
    obtain rfl : t' = t := Option.some.inj hor
    obtain ⟨-, -, hlength, ht⟩ := calendarDate_eq_some hdate
    rw [if_neg, ht]
    rintro ⟨hmonth, hday, hleap⟩
    rw [hmonth, hday, hleap] at hlength
    exact absurd hlength (by decide)
  | none =>
    rw [hdate] at hor
    replace hor : (if a.month ≠ 2 ∨ a.day ≠ 29 then none
      else match a.leapDay with
        | .february28 => calendarDate year 2 28
        | .march1 => calendarDate year 3 1) = some t := hor
    split_ifs at hor with hother
    rw [not_or, not_not, not_not] at hother
    have hcommon : isLeap year.val = false := by
      cases hleap : isLeap year.val with
      | false => rfl
      | true =>
        have hexists : (calendarDate year 2 29).isSome = true := calendarDate_isSome.mpr
          ⟨date_year h, (by decide : (1 : ℕ) ≤ 29), by
            show 29 ≤ if IsLeapYear year.val then 29 else 28
            rw [if_pos (isLeap_iff.mp hleap)]⟩
        rw [hother.1, hother.2] at hdate
        rw [hdate] at hexists
        cases hexists
    rw [if_pos ⟨hother.1, hother.2, hcommon⟩]
    cases hrule : a.leapDay <;> rw [hrule] at hor <;>
      rw [(calendarDate_eq_some hor).2.2.2, hcommon] <;> rfl

end PeriodAnchor

/-! ### Service years -/

namespace ServicePeriod

theorem annual_eq_ok {year : U16} {month day : Fin (2 ^ 8)} {leapDay : LeapDayRule} {p : ServicePeriod}
    (h : annual year month day leapDay = .ok p) : p.anchor = ⟨year, month, day, leapDay⟩ := by
  unfold annual ofAnchor at h
  split at h
  · cases h
    rfl
  · cases h

/-- A period runs from its anchor's day of one year to that of the next. -/
theorem dates (p : ServicePeriod) : p.anchor.date p.anchor.year = .ok p.start ∧
    ∃ next : U16, next.val = p.anchor.year.val + 1 ∧ p.anchor.date next = .ok p.ends := by
  obtain ⟨start, hstart, h⟩ := bind_eq_ok.mp p.dated
  obtain ⟨next, hnext, h⟩ := bind_eq_ok.mp h
  obtain ⟨ends, hends, h⟩ := bind_eq_ok.mp h
  obtain ⟨hs, he⟩ := (Prod.mk.injEq ..).mp (Except.ok.inj h)
  rw [hs] at hstart
  rw [he] at hends
  exact ⟨hstart, next, Checked.succ_eq_some.mp (okOr_eq_ok.mp hnext), hends⟩

theorem date_congr {a a' : PeriodAnchor} {year year' : U16} (hmonth : a.month = a'.month) (hday : a.day = a'.day)
    (hleapDay : a.leapDay = a'.leapDay) (hyear : year.val = year'.val) : a.date year = a'.date year' := by
  rw [PeriodAnchor.date, PeriodAnchor.date, hmonth, hday, hleapDay, Fin.ext hyear]

/-- A service year is a year of days. -/
theorem length (p : ServicePeriod) :
    p.ends.millis = p.start.millis + 365 * dayMillis ∨ p.ends.millis = p.start.millis + 366 * dayMillis := by
  obtain ⟨hstart, next, hnext, hends⟩ := p.dates
  have hs := PeriodAnchor.date_millis hstart
  have he := PeriodAnchor.date_millis hends
  rw [hnext, daysBefore_succ (PeriodAnchor.date_year hstart).1, yearDays] at he
  rw [hs, he, ← Nat.add_mul, ← Nat.add_mul]
  have hshift := p.anchor.offset_leap
  have hcount : ∀ leap next : Bool, ∀ days : ℕ,
      days + (if leap = true then 366 else 365) + p.anchor.offset next = days + p.anchor.offset leap + 365 ∨
      days + (if leap = true then 366 else 365) + p.anchor.offset next = days + p.anchor.offset leap + 366 := by
    intro leap next days
    cases leap <;> cases next <;> simp only [if_true, Bool.false_eq_true, if_false] <;> omega
  rcases hcount (isLeap p.anchor.year.val) (isLeap (p.anchor.year.val + 1)) (daysBefore p.anchor.year.val) with
    heq | heq
  · exact .inl (by rw [heq])
  · exact .inr (by rw [heq])

/-- A period ends where that of the next year starts. -/
theorem ends_eq_start {year year' : U16} {month day : Fin (2 ^ 8)} {leapDay : LeapDayRule} {p p' : ServicePeriod}
    (h : annual year month day leapDay = .ok p) (h' : annual year' month day leapDay = .ok p')
    (hnext : year'.val = year.val + 1) : p.ends = p'.start := by
  have hanchor := annual_eq_ok h
  have hanchor' := annual_eq_ok h'
  obtain ⟨-, next, hnextYear, hends⟩ := p.dates
  have hstart := p'.dates.1
  rw [hanchor] at hnextYear hends
  rw [hanchor'] at hstart
  have hsame : PeriodAnchor.date ⟨year, month, day, leapDay⟩ next =
      PeriodAnchor.date ⟨year', month, day, leapDay⟩ year' := date_congr rfl rfl rfl (by rw [hnextYear, hnext])
  exact Except.ok.inj (hends.symm.trans (hsame.trans hstart))

/-- The service years of one anchor, from one year to another. -/
structure Consecutive (month day : Fin (2 ^ 8)) (leapDay : LeapDayRule) (first last : U16)
    (period : U16 → ServicePeriod) : Prop where
  ordered : first ≤ last
  annual : ∀ year, first ≤ year → year ≤ last → annual year month day leapDay = .ok (period year)

namespace Consecutive
variable {month day : Fin (2 ^ 8)} {leapDay : LeapDayRule} {first last : U16} {period : U16 → ServicePeriod}

/-- Where the years start, and at the end of the last one that it ends. -/
def bound (last : U16) (period : U16 → ServicePeriod) (n : ℕ) : CanonicalTime :=
  if h : n ≤ last.val then (period ⟨n, h.trans_lt last.isLt⟩).start else (period last).ends

theorem bound_eq (h : Consecutive month day leapDay first last period) {year : U16} (hfirst : first ≤ year)
    (hlast : year ≤ last) : bound last period year.val = (period year).start ∧
      bound last period (year.val + 1) = (period year).ends := by
  unfold bound
  refine ⟨dif_pos (show year.val ≤ last.val from hlast), ?_⟩
  by_cases hnext : year.val + 1 ≤ last.val
  · rw [dif_pos hnext]
    have hlow : first ≤ (⟨year.val + 1, hnext.trans_lt last.isLt⟩ : U16) :=
      (show first.val ≤ year.val from hfirst).trans (Nat.le_succ _)
    exact (ends_eq_start (h.annual year hfirst hlast) (h.annual _ hlow hnext) rfl).symm
  · rw [dif_neg hnext]
    have hsame : year = last := Fin.ext (by
      have : year.val ≤ last.val := hlast
      omega)
    rw [hsame]

/-- Consecutive service years tile what they span. -/
theorem tiles (h : Consecutive month day leapDay first last period) (t : CanonicalTime) :
    ((period first).start ≤ t ∧ t < (period last).ends) ↔
      ∃! year, (first ≤ year ∧ year ≤ last) ∧ (period year).contains t = true := by
  have hcontains : ∀ year : U16, first ≤ year ∧ year ≤ last → ((period year).contains t = true ↔
      bound last period year.val ≤ t ∧ t < bound last period (year.val + 1)) := fun year hyear => by
    rw [(h.bound_eq hyear.1 hyear.2).1, (h.bound_eq hyear.1 hyear.2).2, contains, decide_eq_true_iff]
  have hstep : ∀ n, first.val ≤ n → n ≤ last.val → bound last period n < bound last period (n + 1) := by
    intro n hfirst hlast
    obtain ⟨hstart, hends⟩ := @bound_eq _ _ _ _ _ _ h ⟨n, hlast.trans_lt last.isLt⟩ hfirst hlast
    rw [hstart, hends]
    exact start_lt_ends _
  rw [← (h.bound_eq le_rfl h.ordered).1, ← (h.bound_eq h.ordered le_rfl).2,
    Calendar.existsUnique_step h.ordered hstep t]
  constructor
  · rintro ⟨n, ⟨hn, htime⟩, hunique⟩
    refine ⟨⟨n, hn.2.trans_lt last.isLt⟩, ⟨hn, (hcontains _ hn).mpr htime⟩, fun year hyear => ?_⟩
    exact Fin.ext (hunique year.val ⟨hyear.1, (hcontains year hyear.1).mp hyear.2⟩)
  · rintro ⟨year, ⟨hyear, htime⟩, hunique⟩
    refine ⟨year.val, ⟨hyear, (hcontains year hyear).mp htime⟩, fun n hn => ?_⟩
    have := hunique ⟨n, hn.1.2.trans_lt last.isLt⟩ ⟨hn.1, (hcontains _ hn.1).mpr hn.2⟩
    exact congrArg Fin.val this

end Consecutive

/-- **Service years tile the calendar.** A year's period ends where the next begins and is a year of
days long; consecutive periods share no instant and miss none of what they span; and dates are the
Gregorian ones of the supported years, in their order. -/
theorem service_years_tile :
    (∀ (year year' : U16) (month day : Fin (2 ^ 8)) (leapDay : LeapDayRule) (p p' : ServicePeriod),
      annual year month day leapDay = .ok p → annual year' month day leapDay = .ok p' →
        year'.val = year.val + 1 → p.ends = p'.start) ∧
    (∀ p : ServicePeriod, p.start < p.ends ∧ (p.ends.millis = p.start.millis + 365 * dayMillis ∨
      p.ends.millis = p.start.millis + 366 * dayMillis)) ∧
    (∀ (month day : Fin (2 ^ 8)) (leapDay : LeapDayRule) (first last : U16) (period : U16 → ServicePeriod),
      Consecutive month day leapDay first last period → ∀ t : CanonicalTime,
        ((period first).start ≤ t ∧ t < (period last).ends) ↔
          ∃! year, (first ≤ year ∧ year ≤ last) ∧ (period year).contains t = true) ∧
    (∀ (year year' : U16) (month day month' day' : Fin (2 ^ 8)) (t t' : CanonicalTime),
      calendarDate year month day = some t → calendarDate year' month' day' = some t' →
        ((dateOf year month day).Before (dateOf year' month' day') ↔ t < t')) ∧
    ∀ (year : U16) (month day : Fin (2 ^ 8)), (calendarDate year month day).isSome = true ↔
      (1970 ≤ year.val ∧ year.val ≤ 9999) ∧ (dateOf year month day).IsGregorian :=
  ⟨fun _ _ _ _ _ _ _ h h' hnext => ends_eq_start h h' hnext, fun p => ⟨p.start_lt_ends, p.length⟩,
    fun _ _ _ _ _ _ h t => h.tiles t, fun _ _ _ _ _ _ _ _ h h' => calendarDate_strict h h',
    fun _ _ _ => calendarDate_isSome⟩

/-- A period ends in the supported years. -/
theorem ends_lt (p : ServicePeriod) : p.ends.millis < daysBefore 10000 * dayMillis := by
  obtain ⟨-, next, -, hends⟩ := p.dates
  obtain ⟨month, day, hdate⟩ := PeriodAnchor.date_eq_ok hends
  have hyear := PeriodAnchor.date_year hends
  refine (calendarDate_bounds hdate).2.2.trans_le (Nat.mul_le_mul_right _ ?_)
  rcases Nat.lt_or_eq_of_le hyear.2 with hlt | heq
  · exact (daysBefore_strictMono (by omega) (by omega)).le
  · rw [heq]

/-- The last instant there is lies in no service year, and the day before 1970 is not accepted. -/
theorem instant_uncovered : (∃ p, annual 2024 1 1 .february28 = .ok p) ∧
    (∃ p, annual 2025 1 1 .february28 = .ok p) ∧
    (¬∀ t : CanonicalTime, ∃ year p, annual year 1 1 .february28 = .ok p ∧ p.contains t = true) ∧
      ¬∀ year month day, (calendarDate year month day).isSome = true ↔ (dateOf year month day).IsGregorian := by
  refine ⟨⟨_, rfl⟩, ⟨_, rfl⟩, fun h => ?_, fun h => ?_⟩
  · obtain ⟨year, p, -, hcontains⟩ := h ⟨Fin.last _⟩
    obtain ⟨-, hlt⟩ := of_decide_eq_true hcontains
    rw [CanonicalTime.lt_iff_millis] at hlt
    have hends := p.ends_lt
    have hdays := @daysBefore_le 10000 (by decide)
    have hlast : (⟨Fin.last _⟩ : CanonicalTime).millis = 2 ^ 64 - 1 := rfl
    unfold dayMillis at hends
    omega
  · exact absurd ((h 1969 12 31).mpr (by decide)) (by decide)

end ServicePeriod
end CsMail
