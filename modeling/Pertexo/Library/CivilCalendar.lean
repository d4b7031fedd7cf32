import Mathlib.Algebra.Order.Group.Int
import Mathlib.Algebra.Ring.Int.Defs

/-!
# The civil calendar

Days are counted from the first of January 1970. A civil year is counted from its first of
March, which puts the day that leap years add at its end.
-/

namespace Pertexo
namespace Library

structure CivilDate where
  year : Int
  month : Int
  day : Int
  deriving DecidableEq, Repr

/-- The day of the first of March of a year, counted from the first of March of year 0. -/
def marchDay (year : Int) : Int :=
  365 * year + year / 4 - year / 100 + year / 400

def monthStart (month : Int) : Int :=
  (153 * month + 2) / 5

/-- The days from the first of March of year 0 to the first of January 1970. -/
def epochDay : Int :=
  719468

def dayOfCivil (date : CivilDate) : Int :=
  if 3 ≤ date.month then
    marchDay date.year + monthStart (date.month - 3) + date.day - 1 - epochDay
  else
    marchDay (date.year - 1) + monthStart (date.month + 9) + date.day - 1 - epochDay

/-- The year within a cycle of 400 years, from the day within the cycle. The last century of
a cycle and the last year of four years are a day longer than the others. -/
def yearOfCycle (day : Int) : Int :=
  let century := min (day / 36524) 3
  let dayOfCentury := day - 36524 * century
  let leapYears := dayOfCentury / 1461
  let dayOfLeapYears := dayOfCentury - 1461 * leapYears
  100 * century + 4 * leapYears + min (dayOfLeapYears / 365) 3

def marchYear (day : Int) : Int :=
  400 * (day / 146097) + yearOfCycle (day % 146097)

def civilOfDay (day : Int) : CivilDate :=
  let shifted := day + epochDay
  let year := marchYear shifted
  let dayOfYear := shifted - marchDay year
  let month := (5 * dayOfYear + 2) / 153
  let dayOfMonth := dayOfYear - monthStart month + 1
  if month < 10 then { year, month := month + 3, day := dayOfMonth }
  else { year := year + 1, month := month - 9, day := dayOfMonth }

/-!
## Days and dates correspond
-/

theorem marchDay_cycle (cycle year : Int) :
    marchDay (400 * cycle + year) = 146097 * cycle + marchDay year := by
  unfold marchDay
  omega

theorem marchDay_parts {century leapYears year : Int} (hcentury : 0 ≤ century)
    (hlastCentury : century ≤ 3) (hleap : 0 ≤ leapYears) (hlastLeap : leapYears ≤ 24)
    (hyear : 0 ≤ year) (hlastYear : year ≤ 3) :
    marchDay (100 * century + 4 * leapYears + year) =
      36524 * century + 1461 * leapYears + 365 * year := by
  have hfour : (100 * century + 4 * leapYears + year) / 4 = 25 * century + leapYears := by omega
  have hhundred : (100 * century + 4 * leapYears + year) / 100 = century := by omega
  have hcycle : (100 * century + 4 * leapYears + year) / 400 = 0 := by omega
  rw [marchDay, hfour, hhundred, hcycle]
  omega

theorem marchDay_yearOfCycle {day : Int} (hday : 0 ≤ day) (hlast : day < 146097) :
    marchDay (yearOfCycle day) ≤ day ∧ day < marchDay (yearOfCycle day) + 366 := by
  unfold yearOfCycle
  dsimp only
  generalize hcentury : min (day / 36524) 3 = century
  have hcenturies : 0 ≤ century ∧ century ≤ 3 := by omega
  generalize hleap : (day - 36524 * century) / 1461 = leapYears
  have hleapYears : 0 ≤ leapYears ∧ leapYears ≤ 24 := by omega
  generalize hyear : min ((day - 36524 * century - 1461 * leapYears) / 365) 3 = year
  have hyears : 0 ≤ year ∧ year ≤ 3 := by omega
  rw [marchDay_parts hcenturies.left hcenturies.right hleapYears.left hleapYears.right
    hyears.left hyears.right]
  omega

theorem marchDay_marchYear (day : Int) :
    marchDay (marchYear day) ≤ day ∧ day < marchDay (marchYear day) + 366 := by
  have hwithin := marchDay_yearOfCycle (Int.emod_nonneg day (by decide))
    (Int.emod_lt_of_pos day (by decide))
  rw [marchYear, marchDay_cycle]
  have := Int.mul_ediv_add_emod day 146097
  omega

theorem civilOfDay_bounds (day : Int) :
    1 ≤ (civilOfDay day).month ∧ (civilOfDay day).month ≤ 12 ∧
      1 ≤ (civilOfDay day).day ∧ (civilOfDay day).day ≤ 31 := by
  obtain ⟨hstart, hend⟩ := marchDay_marchYear (day + epochDay)
  unfold civilOfDay monthStart
  dsimp only
  split <;> dsimp only <;> omega

theorem dayOfCivil_civilOfDay (day : Int) : dayOfCivil (civilOfDay day) = day := by
  obtain ⟨hstart, hend⟩ := marchDay_marchYear (day + epochDay)
  unfold civilOfDay
  dsimp only
  split
  · rename_i hmonth
    have hfirst : 3 ≤ (5 * (day + epochDay - marchDay (marchYear (day + epochDay))) + 2) / 153
        + 3 := by
      omega
    rw [dayOfCivil, if_pos hfirst]
    dsimp only
    rw [Int.add_sub_cancel]
    omega
  · rename_i hmonth
    have hfirst : ¬ 3 ≤ (5 * (day + epochDay - marchDay (marchYear (day + epochDay))) + 2) / 153
        - 9 := by
      omega
    rw [dayOfCivil, if_neg hfirst]
    dsimp only
    rw [Int.add_sub_cancel, Int.sub_add_cancel]
    omega

theorem civilOfDay_injective {left right : Int} (h : civilOfDay left = civilOfDay right) :
    left = right := by
  rw [← dayOfCivil_civilOfDay left, h, dayOfCivil_civilOfDay]

theorem dayOfCivil_day (date : CivilDate) :
    dayOfCivil { date with day := 1 } + date.day - 1 = dayOfCivil date := by
  unfold dayOfCivil
  dsimp only
  split <;> omega

theorem year_of_le_day {date : CivilDate} (hlast : date.month ≤ 12) (hend : date.day ≤ 31)
    (hday : dayOfCivil { year := 100, month := 1, day := 1 } ≤ dayOfCivil date) :
    100 ≤ date.year := by
  have hstart : dayOfCivil { year := 100, month := 1, day := 1 } = -683003 := by decide
  rw [hstart] at hday
  unfold dayOfCivil marchDay monthStart epochDay at hday
  split at hday <;> omega

theorem year_of_day_lt {date : CivilDate} (hfirst : 1 ≤ date.month) (hstart : 1 ≤ date.day)
    (hday : dayOfCivil date < dayOfCivil { year := 10000, month := 1, day := 1 }) :
    date.year ≤ 9999 := by
  have hend : dayOfCivil { year := 10000, month := 1, day := 1 } = 2932897 := by decide
  rw [hend] at hday
  unfold dayOfCivil marchDay monthStart epochDay at hday
  split at hday <;> omega

/-!
## Functions with jumps far apart

A function of the integers jumps where its value differs from the value before. Where its
jumps are far apart it has at most two values on a short interval.
-/

section Jumps

variable {β : Type*} {value : Int -> β}

def JumpsAt (value : Int -> β) (instant : Int) : Prop :=
  value (instant - 1) ≠ value instant

def JumpsApart (value : Int -> β) (gap : Int) : Prop :=
  forall first second, JumpsAt value first -> JumpsAt value second -> first < second ->
    gap < second - first

theorem eq_of_no_jump {start : Int} (steps : Nat)
    (h : forall time, start < time -> time ≤ start + steps -> ¬ JumpsAt value time) :
    value (start + steps) = value start := by
  induction steps with
  | zero => rw [Nat.cast_zero, Int.add_zero]
  | succ steps ih =>
      have hlast := h (start + (steps + 1 : Nat)) (by omega) (Int.le_refl _)
      have hrest := ih fun time hstart hend => h time hstart (by omega)
      rw [← hrest]
      unfold JumpsAt at hlast
      have hpred : start + ((steps + 1 : Nat) : Int) - 1 = start + steps := by omega
      rw [hpred] at hlast
      exact (not_not.mp hlast).symm

theorem constant_between {start stop : Int}
    (h : forall time, start < time -> time ≤ stop -> ¬ JumpsAt value time)
    {time : Int} (hstart : start ≤ time) (hstop : time ≤ stop) : value time = value start := by
  have hsteps : time = start + (time - start).toNat := by omega
  rw [hsteps]
  exact eq_of_no_jump _ fun other hother hend => h other hother (by omega)

/-- The values of a function on an interval that holds one jump. -/
structure OneJump (value : Int -> β) (start stop jump : Int) (before after : β) : Prop where
  after_start : start < jump
  jump_le : jump ≤ stop
  jumps : JumpsAt value jump
  value_before : forall time, start ≤ time -> time < jump -> value time = before
  value_after : forall time, jump ≤ time -> time ≤ stop -> value time = after

/-- A short interval holds at most one jump. -/
theorem JumpsApart.cases_within {gap start stop : Int} (h : JumpsApart value gap)
    (hshort : stop - start ≤ gap) :
    (forall time, start ≤ time -> time ≤ stop -> value time = value start) ∨
      exists jump before after, OneJump value start stop jump before after := by
  by_cases hjump : exists jump, start < jump ∧ jump ≤ stop ∧ JumpsAt value jump
  · obtain ⟨jump, hstart, hstop, hjumps⟩ := hjump
    apply Or.inr
    have hbefore : forall time, start < time -> time ≤ jump - 1 -> ¬ JumpsAt value time := by
      intro time htime hlast hother
      have := h time jump hother hjumps (by omega)
      omega
    have hafter : forall time, jump < time -> time ≤ stop -> ¬ JumpsAt value time := by
      intro time htime hlast hother
      have := h jump time hjumps hother htime
      omega
    exact ⟨jump, value start, value jump, hstart, hstop, hjumps,
      fun time htime hlast => constant_between hbefore htime (by omega),
      fun time htime hlast => constant_between hafter htime hlast⟩
  · apply Or.inl
    intro time hstart hstop
    exact constant_between
      (fun other hother hlast hjumps => hjump ⟨other, hother, hlast, hjumps⟩) hstart hstop

end Jumps

end Library
end Pertexo
