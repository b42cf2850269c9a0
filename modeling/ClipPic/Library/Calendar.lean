import Mathlib.Data.List.GetD
import Mathlib.Order.Monotone.Basic
import Mathlib.Tactic.IntervalCases
import Mathlib.Algebra.Order.Group.Int

/-!
# Calendar dates and week-numbering years

Days are counted from 1 January 1970. The Gregorian calendar is a bijection of days and dates
(`dates`). A week rule says on which weekday a week starts and how many of its days a year's first week
has at least; the years that it numbers weeks by part the days as well (`weekYear_eq_iff`), and differ
from the calendar's on the few days around New Year whose week has too few of its days in January, or
enough of them in the next (`weekYear_eq_year_iff`).
-/

namespace Calendar

/-! ## Years -/

def IsLeap (y : ℤ) : Prop := 4 ∣ y ∧ (¬ 100 ∣ y ∨ 400 ∣ y)

instance (y : ℤ) : Decidable (IsLeap y) := inferInstanceAs (Decidable (_ ∧ _))

def monthLengths (y : ℤ) : List ℕ :=
  [31, if IsLeap y then 29 else 28, 31, 30, 31, 30, 31, 31, 30, 31, 30, 31]

/-- The first day of a year. -/
def yearStart (y : ℤ) : ℤ :=
  365 * (y - 1970) + ((y - 1) / 4 - (y - 1) / 100 + (y - 1) / 400) - 477

/-- The year of a day: a guess from the average length of a year is at most one year off. -/
def yearOf (n : ℤ) : ℤ :=
  let y := 400 * n / 146097 + 1970
  if n < yearStart y then y - 1 else if n < yearStart (y + 1) then y else y + 1

theorem sum_monthLengths (y : ℤ) : (monthLengths y).sum = 365 + if IsLeap y then 1 else 0 := by
  unfold monthLengths
  split <;> simp

theorem yearStart_succ (y : ℤ) : yearStart (y + 1) = yearStart y + (monthLengths y).sum := by
  rw [sum_monthLengths]
  unfold yearStart
  by_cases hleap : IsLeap y
  · rw [if_pos hleap]
    unfold IsLeap at hleap
    omega
  · rw [if_neg hleap]
    unfold IsLeap at hleap
    omega

theorem yearStart_add_le (y : ℤ) : yearStart y + 365 ≤ yearStart (y + 1) := by
  have hsum := sum_monthLengths y
  have hsucc := yearStart_succ y
  omega

theorem yearStart_lt_succ (y : ℤ) : yearStart y < yearStart (y + 1) := by
  have hle := yearStart_add_le y
  omega

theorem yearOf_spec (n : ℤ) : yearStart (yearOf n) ≤ n ∧ n < yearStart (yearOf n + 1) := by
  have hguess : yearStart (400 * n / 146097 + 1970 - 1) ≤ n ∧
      n < yearStart (400 * n / 146097 + 1970 + 1 + 1) := by
    unfold yearStart
    omega
  unfold yearOf
  simp only
  split
  · rw [sub_add_cancel]
    exact ⟨hguess.1, by assumption⟩
  split
  · exact ⟨by omega, by assumption⟩
  · exact ⟨by omega, hguess.2⟩

/-- The intervals between the values of a strictly increasing function are disjoint. -/
theorem eq_of_between {f : ℤ → ℤ} (hf : ∀ y, f y < f (y + 1)) {n a b : ℤ}
    (ha : f a ≤ n ∧ n < f (a + 1)) (hb : f b ≤ n ∧ n < f (b + 1)) : a = b := by
  have hmono : StrictMono f := strictMono_int_of_lt_succ hf
  have hab : a < b + 1 := hmono.lt_iff_lt.1 (ha.1.trans_lt hb.2)
  have hba : b < a + 1 := hmono.lt_iff_lt.1 (hb.1.trans_lt ha.2)
  omega

theorem yearOf_eq_iff {n y : ℤ} : yearOf n = y ↔ yearStart y ≤ n ∧ n < yearStart (y + 1) :=
  ⟨fun h => h ▸ yearOf_spec n, eq_of_between yearStart_lt_succ (yearOf_spec n)⟩

/-! ## Dates -/

/-- The part of a sequence of parts that contains `n`, and the place of `n` in it. -/
def locate : List ℕ → ℕ → ℕ × ℕ
  | [], n => (0, n)
  | length :: lengths, n =>
    if n < length then (0, n)
    else ((locate lengths (n - length)).1 + 1, (locate lengths (n - length)).2)

theorem locate_spec {lengths : List ℕ} {n : ℕ} (h : n < lengths.sum) :
    (locate lengths n).2 < lengths.getD (locate lengths n).1 0 ∧
      (lengths.take (locate lengths n).1).sum + (locate lengths n).2 = n := by
  induction lengths generalizing n with
  | nil => cases h
  | cons length lengths ih =>
    rw [List.sum_cons] at h
    unfold locate
    split
    case isTrue hn => exact ⟨hn, Nat.zero_add n⟩
    case isFalse hn =>
      obtain ⟨hlt, hsum⟩ := ih (n := n - length) (by omega)
      refine ⟨by simpa using hlt, ?_⟩
      rw [List.take_succ_cons, List.sum_cons]
      omega

theorem locate_sum_take {lengths : List ℕ} {m k : ℕ} (hk : k < lengths.getD m 0) :
    locate lengths ((lengths.take m).sum + k) = (m, k) := by
  induction lengths generalizing m with
  | nil => simp at hk
  | cons length lengths ih =>
    cases m with
    | zero =>
      have hlt : k < length := by simpa using hk
      simp [locate, hlt]
    | succ m =>
      have hrest := ih (m := m) (by simpa using hk)
      have hle : ¬ length + (lengths.take m).sum + k < length := by omega
      have hsub : length + (lengths.take m).sum + k - length = (lengths.take m).sum + k := by omega
      rw [List.take_succ_cons, List.sum_cons, locate, if_neg hle, hsub, hrest]

theorem sum_take_add_lt {lengths : List ℕ} {m k : ℕ} (hk : k < lengths.getD m 0) :
    (lengths.take m).sum + k < lengths.sum := by
  induction lengths generalizing m with
  | nil => simp at hk
  | cons length lengths ih =>
    cases m with
    | zero =>
      have hlt : k < length := by simpa using hk
      simp only [List.take_zero, List.sum_nil, List.sum_cons]
      omega
    | succ m =>
      have hrest := ih (m := m) (by simpa using hk)
      rw [List.take_succ_cons, List.sum_cons, List.sum_cons]
      omega

@[ext]
structure Date where
  year : ℤ
  month : ℕ
  day : ℕ
  month_pos : 1 ≤ month
  day_pos : 1 ≤ day
  day_le : day ≤ (monthLengths year).getD (month - 1) 0

/-- The days before the month in its year. -/
def Date.monthStart (date : Date) : ℕ := ((monthLengths date.year).take (date.month - 1)).sum

def Date.toDay (date : Date) : ℤ := yearStart date.year + (date.monthStart + (date.day - 1) : ℕ)

theorem dayOfYear_lt (n : ℤ) : (n - yearStart (yearOf n)).toNat < (monthLengths (yearOf n)).sum := by
  have hspec := yearOf_spec n
  have hsucc := yearStart_succ (yearOf n)
  omega

/-- The date of a day. -/
def date (n : ℤ) : Date :=
  let place := locate (monthLengths (yearOf n)) (n - yearStart (yearOf n)).toNat
  { year := yearOf n
    month := place.1 + 1
    day := place.2 + 1
    month_pos := Nat.le_add_left 1 _
    day_pos := Nat.le_add_left 1 _
    day_le := (locate_spec (dayOfYear_lt n)).1 }

theorem toDay_date (n : ℤ) : (date n).toDay = n := by
  have hsum := (locate_spec (dayOfYear_lt n)).2
  have hspec := yearOf_spec n
  simp only [Date.toDay, Date.monthStart, date, Nat.add_sub_cancel]
  omega

theorem Date.day_lt (d : Date) : d.day - 1 < (monthLengths d.year).getD (d.month - 1) 0 := by
  have hpos := d.day_pos
  have hle := d.day_le
  omega

theorem date_toDay (d : Date) : date d.toDay = d := by
  have hyear : yearOf d.toDay = d.year := by
    have hlt : d.monthStart + (d.day - 1) < _ := sum_take_add_lt d.day_lt
    have hsucc := yearStart_succ d.year
    rw [yearOf_eq_iff, Date.toDay]
    omega
  have hday : (d.toDay - yearStart d.year).toNat = d.monthStart + (d.day - 1) := by
    rw [Date.toDay]
    omega
  have hplace := locate_sum_take d.day_lt
  simp only [date, hyear, hday, Date.monthStart, hplace]
  ext
  · rfl
  · exact Nat.sub_add_cancel d.month_pos
  · exact Nat.sub_add_cancel d.day_pos

/-- **Days are dates** of the Gregorian calendar. -/
def dates : ℤ ≃ Date := ⟨date, Date.toDay, toDay_date, date_toDay⟩

example : ((dates 18992).year, (dates 18992).month, (dates 18992).day) = (2021, 12, 31) := by decide

theorem toDay_dates (n : ℤ) : (dates n).toDay = n := toDay_date n

/-- The days of January and of December are counted from the ends of the year. -/
theorem Date.toDay_cases (d : Date) :
    (d.month = 1 ∧ d.day ≤ 31 ∧ d.toDay = yearStart d.year + d.day - 1) ∨
      (d.month = 12 ∧ d.day ≤ 31 ∧ d.toDay = yearStart (d.year + 1) + d.day - 32) ∨
      (d.month ≠ 1 ∧ d.month ≠ 12) ∧ yearStart d.year + 31 ≤ d.toDay ∧
        d.toDay + 31 < yearStart (d.year + 1) := by
  obtain ⟨year, month, day, hmonth, hday, hle⟩ := d
  have hlast : month ≤ 12 := by
    by_contra hlarge
    have hlength : (monthLengths year).length ≤ month - 1 := by
      simp only [monthLengths, List.length_cons, List.length_nil]
      omega
    rw [List.getD_eq_default _ _ hlength] at hle
    omega
  have hsucc := yearStart_succ year
  unfold Date.toDay Date.monthStart
  by_cases hleap : IsLeap year
  · interval_cases month <;> simp [monthLengths, hleap] at hle hsucc ⊢ <;> omega
  · interval_cases month <;> simp [monthLengths, hleap] at hle hsucc ⊢ <;> omega

/-! ## Weeks -/

/-- Weekdays count from Sunday, which is 1. -/
structure WeekRule where
  firstWeekday : ℤ
  minimalDaysInFirstWeek : ℤ
  firstWeekday_mem : 1 ≤ firstWeekday ∧ firstWeekday ≤ 7 := by decide
  minimalDaysInFirstWeek_mem : 1 ≤ minimalDaysInFirstWeek ∧ minimalDaysInFirstWeek ≤ 7 := by decide

/-- 1 January 1970 was a Thursday. -/
def weekday (n : ℤ) : ℤ := (n + 4) % 7 + 1

namespace WeekRule

variable (rule : WeekRule)

/-- The days of the week before day `n`. -/
def dayOfWeek (n : ℤ) : ℤ := (weekday n - rule.firstWeekday) % 7

def weekStart (n : ℤ) : ℤ := n - rule.dayOfWeek n

/-- The first day of the first week of a year, the first with `minimalDaysInFirstWeek` of its days. -/
def firstWeek (y : ℤ) : ℤ := rule.weekStart (yearStart y + (rule.minimalDaysInFirstWeek - 1))

/-- The year that the week of a day is numbered in. -/
def weekYear (n : ℤ) : ℤ :=
  let y := (dates n).year
  if n < rule.firstWeek y then y - 1 else if n < rule.firstWeek (y + 1) then y else y + 1

theorem dayOfWeek_mem (n : ℤ) : 0 ≤ rule.dayOfWeek n ∧ rule.dayOfWeek n < 7 := by
  unfold dayOfWeek
  omega

/-- A week starts by day `n` when its days end no later than the week of `n`. -/
theorem weekStart_le_iff (m n : ℤ) : rule.weekStart m ≤ n ↔ m ≤ n - rule.dayOfWeek n + 6 := by
  unfold weekStart dayOfWeek weekday
  omega

theorem firstWeek_mem (y : ℤ) : yearStart y + rule.minimalDaysInFirstWeek - 7 ≤ rule.firstWeek y ∧
    rule.firstWeek y < yearStart y + rule.minimalDaysInFirstWeek := by
  unfold firstWeek weekStart dayOfWeek
  omega

theorem firstWeek_lt_succ (y : ℤ) : rule.firstWeek y < rule.firstWeek (y + 1) := by
  have hyear := yearStart_add_le y
  have hthis := rule.firstWeek_mem y
  have hnext := rule.firstWeek_mem (y + 1)
  omega

theorem weekYear_spec (n : ℤ) :
    rule.firstWeek (rule.weekYear n) ≤ n ∧ n < rule.firstWeek (rule.weekYear n + 1) := by
  have hspec := yearOf_spec n
  have hmem := rule.minimalDaysInFirstWeek_mem
  by_cases hbefore : n < rule.firstWeek (yearOf n)
  · have hyear : rule.weekYear n = yearOf n - 1 := if_pos hbefore
    have hle := yearStart_add_le (yearOf n - 1)
    have hprevious := rule.firstWeek_mem (yearOf n - 1)
    rw [sub_add_cancel] at hle
    rw [hyear, sub_add_cancel]
    exact ⟨by omega, hbefore⟩
  by_cases hwithin : n < rule.firstWeek (yearOf n + 1)
  · have hyear : rule.weekYear n = yearOf n := (if_neg hbefore).trans (if_pos hwithin)
    rw [hyear]
    exact ⟨not_lt.1 hbefore, hwithin⟩
  · have hyear : rule.weekYear n = yearOf n + 1 := (if_neg hbefore).trans (if_neg hwithin)
    have hle := yearStart_add_le (yearOf n + 1)
    have hnext := rule.firstWeek_mem (yearOf n + 1 + 1)
    rw [hyear]
    exact ⟨not_lt.1 hwithin, by omega⟩

theorem weekYear_eq_iff {n y : ℤ} :
    rule.weekYear n = y ↔ rule.firstWeek y ≤ n ∧ n < rule.firstWeek (y + 1) :=
  ⟨fun h => h ▸ rule.weekYear_spec n, eq_of_between rule.firstWeek_lt_succ (rule.weekYear_spec n)⟩

/-- In January, in a week with too few days in the month; in December, in a week with enough days in the
next year. -/
def NearNewYear (n : ℤ) : Prop :=
  ((dates n).month = 1 ∧ (dates n).day + 6 - rule.dayOfWeek n < rule.minimalDaysInFirstWeek) ∨
    ((dates n).month = 12 ∧ rule.minimalDaysInFirstWeek + 25 ≤ (dates n).day - rule.dayOfWeek n)

/-- **The two years differ** exactly near New Year. -/
theorem weekYear_eq_year_iff (n : ℤ) : rule.weekYear n = (dates n).year ↔ ¬ rule.NearNewYear n := by
  have hcases := (dates n).toDay_cases
  rw [toDay_dates] at hcases
  have hyear := yearStart_add_le (dates n).year
  have hweek := rule.dayOfWeek_mem n
  have hrule := rule.minimalDaysInFirstWeek_mem
  have hthis : rule.firstWeek (dates n).year ≤ n ↔
      ¬ ((dates n).month = 1 ∧ (dates n).day + 6 - rule.dayOfWeek n < rule.minimalDaysInFirstWeek) := by
    rw [firstWeek, weekStart_le_iff]
    omega
  have hnext : n < rule.firstWeek ((dates n).year + 1) ↔
      ¬ ((dates n).month = 12 ∧
        rule.minimalDaysInFirstWeek + 25 ≤ (dates n).day - rule.dayOfWeek n) := by
    rw [← not_le, firstWeek, weekStart_le_iff]
    omega
  rw [weekYear_eq_iff, hthis, hnext, ← not_or, NearNewYear]

end WeekRule

end Calendar
