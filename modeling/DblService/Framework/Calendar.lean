import Mathlib.Tactic.IntervalCases

/-!
# The Gregorian calendar

Periods of given lengths follow one another: `periodStart length k` is where the period `k`
begins, and `locate` finds the period of a point.  Years are such periods of days, and the months
of a year are, too.
-/

namespace DblService.Framework

def periodStart (length : Nat → Nat) : Nat → Nat
  | 0 => 0
  | k + 1 => periodStart length k + length k

/-- The period of the point `n` after the start of `k`, and how far into it the point is; at most
`fuel` periods are passed. -/
def locate (length : Nat → Nat) : Nat → Nat → Nat → Nat × Nat
  | 0, k, n => (k, n)
  | fuel + 1, k, n => if n < length k then (k, n) else locate length fuel (k + 1) (n - length k)

section
variable {length : Nat → Nat}

private theorem periodStart_mono (length : Nat → Nat) {j k : Nat} (h : j ≤ k) :
    periodStart length j ≤ periodStart length k := by
  induction h with
  | refl => exact le_rfl
  | step h ih => exact ih.trans (Nat.le_add_right _ _)

private theorem periodStart_add_le (hpos : ∀ k, 0 < length k) (k n : Nat) :
    periodStart length k + n ≤ periodStart length (k + n) := by
  induction n with
  | zero => exact le_rfl
  | succ n ih =>
    have hlength := hpos (k + n)
    rw [← Nat.add_assoc, ← Nat.add_assoc, periodStart]
    omega

private theorem periodStart_locate (length : Nat → Nat) (fuel k n : Nat) :
    periodStart length (locate length fuel k n).1 + (locate length fuel k n).2 =
      periodStart length k + n := by
  induction fuel generalizing k n with
  | zero => rfl
  | succ fuel ih =>
    rw [locate]
    split_ifs with hlt
    · rfl
    · rw [ih, periodStart]
      omega

private theorem le_locate (length : Nat → Nat) (fuel k n : Nat) :
    k ≤ (locate length fuel k n).1 := by
  induction fuel generalizing k n with
  | zero => exact le_rfl
  | succ fuel ih =>
    rw [locate]
    split_ifs with hlt
    · exact le_rfl
    · exact (Nat.le_succ k).trans (ih (k + 1) (n - length k))

private theorem locate_lt {fuel k n : Nat}
    (h : periodStart length k + n < periodStart length (k + fuel)) :
    (locate length fuel k n).2 < length (locate length fuel k n).1 := by
  induction fuel generalizing k n with
  | zero => exact absurd h (by rw [Nat.add_zero]; omega)
  | succ fuel ih =>
    rw [locate]
    split_ifs with hlt
    · exact hlt
    · apply ih
      rw [periodStart, Nat.add_assoc k 1, Nat.add_comm 1]
      omega

private theorem locate_fst_lt {fuel k n m : Nat}
    (h : periodStart length k + n < periodStart length m) : (locate length fuel k n).1 < m := by
  by_contra hle
  have hstart := periodStart_mono length (Nat.le_of_not_lt hle)
  have hlocate := periodStart_locate length fuel k n
  omega

end

/-! ## Years and months -/

def isLeap (year : Nat) : Bool := year % 4 = 0 && (year % 100 ≠ 0 || year % 400 = 0)

def yearDays (year : Nat) : Nat := if isLeap year then 366 else 365

/-- The days of a month, from January, which is the month 0. -/
def monthDays (year month : Nat) : Nat :=
  match month with
  | 1 => if isLeap year then 29 else 28
  | 3 | 5 | 8 | 10 => 30
  | _ => 31

private theorem yearDays_pos (year : Nat) : 0 < yearDays year := by
  unfold yearDays
  split_ifs <;> decide

private theorem periodStart_monthDays_twelve (year : Nat) :
    periodStart (monthDays year) 12 = yearDays year := by
  simp only [periodStart, monthDays, yearDays]
  split_ifs <;> rfl

theorem monthDays_le (year month : Nat) : monthDays year month ≤ 31 := by
  unfold monthDays
  split
  · split_ifs <;> decide
  all_goals decide

/-- The day before a year, counted from the first day of the year 0. -/
def daysBefore (year : Int) : Int :=
  365 * year + (year - 1) / 4 - (year - 1) / 100 + (year - 1) / 400

theorem periodStart_yearDays (year : Nat) :
    (periodStart yearDays year : Int) = daysBefore year + 1 := by
  induction year with
  | zero => rfl
  | succ year ih =>
    rw [periodStart, Nat.cast_add, ih]
    simp only [daysBefore, yearDays, isLeap, Bool.and_eq_true, Bool.or_eq_true,
      decide_eq_true_eq]
    split_ifs <;> omega

/-- The year, the month from 0 and the day from 0 of a number of days after the start of the
year `epoch`. -/
def civil (epoch days : Nat) : Nat × Nat × Nat :=
  let (year, yearDay) := locate yearDays (days + 1) epoch days
  let (month, day) := locate (monthDays year) 12 0 yearDay
  (year, month, day)

/-- What is known of the date of a day. -/
structure IsCivil (epoch days year month day : Nat) : Prop where
  year_ge : epoch ≤ year
  month_lt : month < 12
  day_lt : day < monthDays year month
  days_eq : periodStart yearDays year + periodStart (monthDays year) month + day =
    periodStart yearDays epoch + days

theorem isCivil (epoch days : Nat) :
    IsCivil epoch days (civil epoch days).1 (civil epoch days).2.1 (civil epoch days).2.2 := by
  have hfuel : periodStart yearDays epoch + days < periodStart yearDays (epoch + (days + 1)) :=
    periodStart_add_le yearDays_pos epoch (days + 1)
  have hyear := periodStart_locate yearDays (days + 1) epoch days
  have hlt := locate_lt hfuel
  have hge := le_locate yearDays (days + 1) epoch days
  simp only [civil]
  revert hyear hlt hge
  generalize locate yearDays (days + 1) epoch days = place
  intro hyear hlt hge
  have hmonths : periodStart (monthDays place.1) 0 + place.2 <
      periodStart (monthDays place.1) (0 + 12) := by
    rw [Nat.zero_add 12, periodStart_monthDays_twelve, periodStart, Nat.zero_add]
    exact hlt
  have hmonth := periodStart_locate (monthDays place.1) 12 0 place.2
  refine ⟨hge, locate_fst_lt hmonths, locate_lt hmonths, ?_⟩
  rw [periodStart, Nat.zero_add] at hmonth
  omega

theorem civil_year_lt_iff (epoch days year : Nat) :
    (civil epoch days).1 < year ↔
      periodStart yearDays epoch + days < periodStart yearDays year := by
  have hcivil := isCivil epoch days
  have hmonth := periodStart_monthDays_twelve (civil epoch days).1
  have hbefore : periodStart (monthDays (civil epoch days).1) (civil epoch days).2.1 +
      (civil epoch days).2.2 < periodStart (monthDays (civil epoch days).1) 12 :=
    (Nat.add_lt_add_left hcivil.day_lt _).trans_le (periodStart_mono _ hcivil.month_lt)
  have hdays := hcivil.days_eq
  constructor
  · intro hlt
    have hnext := periodStart_mono yearDays (Nat.succ_le_of_lt hlt)
    rw [Nat.succ_eq_add_one, periodStart] at hnext
    omega
  · intro hlt
    by_contra hle
    have hstart := periodStart_mono yearDays (Nat.le_of_not_lt hle)
    omega

end DblService.Framework
