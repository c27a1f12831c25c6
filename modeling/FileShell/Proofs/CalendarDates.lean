import FileShell.Calendar
import Mathlib.Tactic.IntervalCases
import Mathlib.Tactic.SplitIfs

namespace FileShell.Calendar

/-- Days from 1 January 1970 to 1 March of a year. -/
def marchOf (year : Int) : Int := 365 * year + year / 4 - year / 100 + year / 400 - epochOffset

theorem marchOf_mono {a b : Int} (h : a ≤ b) : marchOf a ≤ marchOf b := by
  unfold marchOf
  omega

/-- Of the years that end a century only those that end a cycle have a leap day. -/
theorem marchOf_succ_le (year : Int) : marchOf (year + 1) ≤ marchOf year + 366 := by
  have hcentury : year / 400 = year / 100 / 4 := by omega
  have hnext : (year + 1) / 400 = (year + 1) / 100 / 4 := by omega
  unfold marchOf
  omega

theorem le_marchOf_succ (year : Int) : marchOf year + 365 ≤ marchOf (year + 1) := by
  have hcentury : year / 100 = year / 4 / 25 := by omega
  have hnext : (year + 1) / 100 = (year + 1) / 4 / 25 := by omega
  unfold marchOf
  omega

theorem marchOf_add_cycles (year era : Int) :
    marchOf (year + 400 * era) = marchOf year + cycle * era := by
  have hleaps : (year + 400 * era) / 4 = year / 4 + 100 * era := by omega
  have hcenturies : (year + 400 * era) / 100 = year / 100 + 4 * era := by omega
  have hcycles : (year + 400 * era) / 400 = year / 400 + era := by omega
  unfold marchOf cycle
  omega

/-- The date that is so many days behind 1 March of a year. -/
def dateInYear (year days : Int) : Date :=
  let month := (5 * days + 2) / 153
  ⟨if month < 10 then year else year + 1, if month < 10 then month + 3 else month - 9,
    days - (153 * month + 2) / 5 + 1⟩

section Cycle

variable {n year : Int} (hn : 0 ≤ n) (hcycle : n < cycle)
  (hyear : year = (n - n / 1460 + n / 36524 - n / 146096) / 365)
include hn hcycle hyear

theorem year_in_cycle : 0 ≤ year ∧ year ≤ 399 := by
  unfold cycle at hcycle
  omega

/-- The year of a day has begun. -/
theorem begun_in_cycle : marchOf year + epochOffset ≤ n := by
  unfold cycle at hcycle
  unfold marchOf
  by_contra hlt
  have hleap : year / 4 ≤ n / 1460 := by omega
  have hcentury : year / 100 + n / 146096 + 1 ≤ n / 36524 := by omega
  have hearly : n < 36499 * (n / 36524) + n / 1460 := by omega
  omega

/-- The year of a day has not ended. -/
theorem not_ended_in_cycle : n < marchOf (year + 1) + epochOffset := by
  unfold cycle at hcycle
  unfold marchOf
  by_contra hge
  have hleap : n / 1460 ≤ (year + 1) / 4 := by omega
  have hcentury : n / 36524 + 1 + (year + 1) / 400 ≤ (year + 1) / 100 + n / 146096 := by omega
  have hleaps : 25 * ((year + 1) / 100) ≤ (year + 1) / 4 := by omega
  have hlate : 36524 * ((year + 1) / 100) ≤ n := by omega
  omega

theorem day_in_cycle : n - (365 * year + year / 4 - year / 100) = n - epochOffset - marchOf year := by
  have hbounds := year_in_cycle hn hcycle hyear
  unfold marchOf
  omega

end Cycle

theorem exists_dateInYear (days : Int) : ∃ year, marchOf year ≤ days ∧ days < marchOf (year + 1) ∧
    dateOfDay days = dateInYear year (days - marchOf year) := by
  have hn : 0 ≤ (days + epochOffset) % cycle := Int.emod_nonneg _ (by decide)
  have hcycle : (days + epochOffset) % cycle < cycle := Int.emod_lt_of_pos _ (by decide)
  have hsplit := Int.emod_add_mul_ediv (days + epochOffset) cycle
  unfold dateOfDay
  dsimp only
  generalize (days + epochOffset) / cycle = era at hsplit
  generalize (days + epochOffset) % cycle = n at hn hcycle hsplit
  generalize hyear : (n - n / 1460 + n / 36524 - n / 146096) / 365 = year
  have hbegun := begun_in_cycle hn hcycle hyear.symm
  have hended := not_ended_in_cycle hn hcycle hyear.symm
  have hmarch := marchOf_add_cycles year era
  have hnext := marchOf_add_cycles (year + 1) era
  rw [add_right_comm] at hnext
  rw [day_in_cycle hn hcycle hyear.symm]
  refine ⟨year + 400 * era, by omega, by omega, ?_⟩
  have hday : n - epochOffset - marchOf year = days - marchOf (year + 400 * era) := by omega
  rw [hday, dateInYear]
  have hshort := marchOf_succ_le year
  generalize hr : days - marchOf (year + 400 * era) = r
  have hr0 : 0 ≤ r := by omega
  have hr1 : r < 366 := by omega
  congr 1
  split_ifs <;> omega

theorem dateOfDay_eq {year days : Int} (hbegun : marchOf year ≤ days)
    (hended : days < marchOf (year + 1)) :
    dateOfDay days = dateInYear year (days - marchOf year) := by
  obtain ⟨other, hbegun', hended', hdate⟩ := exists_dateInYear days
  obtain hlt | rfl | hgt := lt_trichotomy other year
  · have hmono : marchOf (other + 1) ≤ marchOf year := marchOf_mono hlt
    omega
  · exact hdate
  · have hmono : marchOf (year + 1) ≤ marchOf other := marchOf_mono hgt
    omega

theorem month_bounds {r : Int} (h0 : 0 ≤ r) (h1 : r < 366) :
    0 ≤ (5 * r + 2) / 153 ∧ (5 * r + 2) / 153 ≤ 11 := by
  omega

theorem dateInYear_inj {year year' r r' : Int} (h0 : 0 ≤ r) (h1 : r < 366) (h0' : 0 ≤ r')
    (h1' : r' < 366) (h : dateInYear year r = dateInYear year' r') : year = year' ∧ r = r' := by
  obtain ⟨hlow, hhigh⟩ := month_bounds h0 h1
  obtain ⟨hlow', hhigh'⟩ := month_bounds h0' h1'
  unfold dateInYear at h
  dsimp only at h
  obtain ⟨hyear, hmonth, hday⟩ := Date.mk.inj h
  generalize (5 * r + 2) / 153 = m at *
  generalize (5 * r' + 2) / 153 = m' at *
  have hm : m = m' := by split_ifs at hmonth <;> omega
  subst hm
  split_ifs at hyear <;> omega

theorem dateOfDay_injective {a b : Int} (h : dateOfDay a = dateOfDay b) : a = b := by
  obtain ⟨year, hbegun, hended, hdate⟩ := exists_dateInYear a
  obtain ⟨year', hbegun', hended', hdate'⟩ := exists_dateInYear b
  have hshort := marchOf_succ_le year
  have hshort' := marchOf_succ_le year'
  rw [hdate, hdate'] at h
  obtain ⟨rfl, hdays⟩ := dateInYear_inj (by omega) (by omega) (by omega) (by omega) h
  omega

structure Date.InRange (date : Date) : Prop where
  one_le_month : 1 ≤ date.month
  month_le : date.month ≤ 12
  one_le_day : 1 ≤ date.day
  day_le : date.day ≤ 31

theorem inRange_dateOfDay (days : Int) : (dateOfDay days).InRange := by
  obtain ⟨year, hbegun, hended, hdate⟩ := exists_dateInYear days
  have hshort := marchOf_succ_le year
  rw [hdate, dateInYear]
  constructor
  · dsimp only
    split_ifs <;> omega
  · dsimp only
    split_ifs <;> omega
  · dsimp only
    omega
  · dsimp only
    omega

/-- Days from 1 January 1970 to 1 January of a year. -/
def newYear (year : Int) : Int := marchOf (year - 1) + 306

theorem newYear_le_iff (year days : Int) : newYear year ≤ days ↔ year ≤ (dateOfDay days).year := by
  obtain ⟨march, hbegun, hended, hdate⟩ := exists_dateInYear days
  have hshort := marchOf_succ_le march
  rw [hdate, dateInYear, newYear]
  dsimp only
  obtain hlt | rfl | hgt := lt_trichotomy (year - 1) march
  · have hmono : marchOf (year - 1 + 1) ≤ marchOf march := marchOf_mono (by omega)
    have hlong := le_marchOf_succ (year - 1)
    split_ifs <;> omega
  · split_ifs <;> omega
  · have hmono : marchOf (march + 1) ≤ marchOf (year - 1) := marchOf_mono (by omega)
    split_ifs <;> omega

def isLeap (year : Int) : Bool := year % 4 = 0 && (year % 100 ≠ 0 || year % 400 = 0)

def monthLength (year month : Int) : Int :=
  if month = 2 then if isLeap year then 29 else 28
  else if month = 4 ∨ month = 6 ∨ month = 9 ∨ month = 11 then 30 else 31

def Date.next (date : Date) : Date :=
  if date.day < monthLength date.year date.month then { date with day := date.day + 1 }
  else if date.month < 12 then ⟨date.year, date.month + 1, 1⟩
  else ⟨date.year + 1, 1, 1⟩

/-- February, the last month of a year that begins in March, has what is left of the year. -/
theorem monthLength_february (year : Int) :
    monthLength (year + 1) 2 = marchOf (year + 1) - marchOf year - 337 := by
  unfold monthLength isLeap marchOf
  simp only [if_true, Bool.and_eq_true, Bool.or_eq_true, decide_eq_true_eq]
  split_ifs <;> omega

theorem monthLength_of_lt {m : Int} (hlow : 0 ≤ m) (hhigh : m < 11) (year : Int) :
    monthLength year (if m < 10 then m + 3 else m - 9) =
      (153 * (m + 1) + 2) / 5 - (153 * m + 2) / 5 := by
  unfold monthLength
  interval_cases m <;> rfl

theorem next_dateInYear {year r length : Int} (hlength : marchOf (year + 1) = marchOf year + length)
    (h0 : 0 ≤ r) (h1 : r < length) :
    (dateInYear year r).next =
      if r + 1 < length then dateInYear year (r + 1) else dateInYear (year + 1) 0 := by
  have hlong : 365 ≤ length := by have h := le_marchOf_succ year; omega
  have hshort : length ≤ 366 := by have h := marchOf_succ_le year; omega
  have hfebruary : monthLength (year + 1) 2 = length - 337 := by
    rw [monthLength_february, hlength]
    omega
  obtain ⟨hlow, hhigh⟩ := month_bounds h0 (by omega)
  have hnext : (5 * (r + 1) + 2) / 153 = (5 * r + 2) / 153 ∨
      (5 * (r + 1) + 2) / 153 = (5 * r + 2) / 153 + 1 := by omega
  unfold dateInYear Date.next
  dsimp only
  generalize hm : (5 * r + 2) / 153 = m at *
  obtain hlast | rfl : m < 11 ∨ m = 11 := by omega
  · rw [monthLength_of_lt hlow hlast, if_pos (by omega : r + 1 < length)]
    obtain hsame | hother := hnext
    · rw [hsame, if_pos (by omega), sub_add_eq_add_sub]
    · have hfirst : (153 * (m + 1) + 2) / 5 = r + 1 := by omega
      rw [hother, if_neg (by omega), hfirst, sub_self]
      split_ifs <;> first | omega | (congr 1; omega)
  · have hinMonth : r - (153 * 11 + 2) / 5 + 1 < length - 337 ↔ r + 1 < length := by omega
    simp only [show ¬ (11 : Int) < 10 by decide, if_false, show (11 : Int) - 9 = 2 from rfl,
      hfebruary, hinMonth]
    by_cases hin : r + 1 < length
    · have hsame : (5 * (r + 1) + 2) / 153 = 11 := by omega
      rw [if_pos hin, if_pos hin, hsame, sub_add_eq_add_sub]
      rfl
    · rw [if_neg hin, if_neg hin]
      rfl

theorem dateOfDay_succ (days : Int) : dateOfDay (days + 1) = (dateOfDay days).next := by
  obtain ⟨year, hbegun, hended, hdate⟩ := exists_dateInYear days
  have hlength : marchOf (year + 1) = marchOf year + (marchOf (year + 1) - marchOf year) := by omega
  rw [hdate, next_dateInYear hlength (by omega) (by omega)]
  split_ifs with hin
  · rw [dateOfDay_eq (by omega : marchOf year ≤ days + 1) (by omega), sub_add_eq_add_sub]
  · have hlong := le_marchOf_succ (year + 1)
    have hfirst : days + 1 = marchOf (year + 1) := by omega
    rw [hfirst, dateOfDay_eq (le_refl _) (by omega), sub_self]

theorem dateOfDay_zero : dateOfDay 0 = ⟨1970, 1, 1⟩ := rfl

end FileShell.Calendar
