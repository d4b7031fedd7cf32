import Mathlib.Algebra.Order.Group.Abs
import Mathlib.Data.List.Sort
import Mathlib.Order.Bounds.Basic
import Pertexo.Library.CivilCalendar

/-!
# Notice schedules and local clocks

Instants are milliseconds since the first of January 1970 in UTC, as a script's dates hold
them. A time zone is what the platform's formatter knows of it: the offset of its clocks at
every instant.
-/

namespace Pertexo
namespace Notices

open Library

def minute : Int :=
  60000

def hourLength : Int :=
  3600000

def dayLength : Int :=
  86400000

structure TimeZone where
  offset : Int -> Int

inductive NoticeEmailMode where
  | off
  | immediate
  | hourly
  | daily
  deriving DecidableEq, Repr

structure NoticeSchedule where
  mode : NoticeEmailMode
  hour : Int
  timeZone : TimeZone
  hour_nonneg : 0 ≤ hour
  hour_le : hour ≤ 23

inductive NoticeFailure where
  | unresolvedHour
  | unscheduled
  | outOfFuel
  deriving DecidableEq, Repr

/-!
## Dates of the platform
-/

/-- Milliseconds of a date whose month counts from zero. A year below 100 counts from 1900. -/
def dateUTC (year month date hour minutes seconds : Int) : Int :=
  let fullYear := if 0 ≤ year ∧ year ≤ 99 then 1900 + year else year
  let firstOfMonth := dayOfCivil
    { year := fullYear + month / 12, month := month % 12 + 1, day := 1 }
  (firstOfMonth + date - 1) * dayLength + hour * hourLength + minutes * minute + seconds * 1000

def utcDate (time : Int) : CivilDate :=
  civilOfDay (time / dayLength)

structure CalendarParts where
  year : Int
  month : Int
  day : Int
  hour : Int
  minute : Int
  second : Int

def localTime (zone : TimeZone) (time : Int) : Int :=
  time + zone.offset time

/-- Years before the first are years of an era that counts backwards. -/
def formatToParts (zone : TimeZone) (time : Int) : CalendarParts :=
  let wall := localTime zone time
  let date := utcDate wall
  { year := if 1 ≤ date.year then date.year else 1 - date.year
    month := date.month
    day := date.day
    hour := wall % dayLength / hourLength
    minute := wall % hourLength / minute
    second := wall % minute / 1000 }

def calendar (time : Int) (zone : TimeZone) : Int :=
  let part := formatToParts zone time
  dateUTC part.year (part.month - 1) part.day part.hour part.minute part.second

/-!
## Resolving a local hour
-/

def sampleHours : List Int :=
  (List.range 13).map fun (step : Nat) => 6 * (step : Int) - 36

def sampledOffsets (target : Int) (zone : TimeZone) : List Int :=
  (sampleHours.map fun hours =>
    calendar (target + hours * hourLength) zone - (target + hours * hourLength)).eraseDups

def candidates (target : Int) (zone : TimeZone) : List Int :=
  ((sampledOffsets target zone).map fun offset => target - offset).insertionSort (· ≤ ·)

/-- The loop that halves an interval whose end shows a time at or after the target. -/
def searchHour (target : Int) (zone : TimeZone) : Nat -> Int -> Int -> Except NoticeFailure Int
  | 0, _, _ => .error .outOfFuel
  | fuel + 1, low, high =>
      if 1000 < high - low then
        let middle := (low + high) / 2000 * 1000
        if target ≤ calendar middle zone then searchHour target zone fuel low middle
        else searchHour target zone fuel middle high
      else .ok high

/-- Resolve one local hour, choosing the first occurrence or first instant after a gap. -/
def localHour (target : Int) (zone : TimeZone) : Except NoticeFailure Int :=
  let sorted := candidates target zone
  match sorted.filter fun instant => calendar instant zone = target with
  | first :: _ => .ok first
  | [] =>
      match sorted.find? fun instant => target < calendar instant zone with
      | none => .error .unresolvedHour
      | some above =>
          let low := sorted.head?.getD above - minute
          searchHour target zone ((above - low).toNat + 1) low above

/-!
## Due instants and windows
-/

def hourOfDay (wall : CivilDate) (days hour : Int) : Int :=
  dateUTC wall.year (wall.month - 1) (wall.day + days) hour 0 0

def firstLocalHour (wall : CivilDate) (hour : Int) (zone : TimeZone) (now : Int) :
    List Int -> Except NoticeFailure Int
  | [] => .error .unscheduled
  | days :: rest => do
      let candidate ← localHour (hourOfDay wall days hour) zone
      if now < candidate then return candidate else firstLocalHour wall hour zone now rest

def nextNoticeDue (schedule : NoticeSchedule) (now : Int) : Except NoticeFailure (Option Int) :=
  match schedule.mode with
  | .off => .ok none
  | .immediate => .ok (some ((now / minute + 1) * minute))
  | .hourly => .ok (some ((now / hourLength + 1) * hourLength))
  | .daily => do
      let wall := utcDate (calendar now schedule.timeZone)
      let due ← firstLocalHour wall schedule.hour schedule.timeZone now [0, 1, 2, 3]
      return some due

def digitChar (number : Int) : Char :=
  Char.ofNat (48 + (number % 10).toNat)

/-- The last decimal digits of a number, as many as are asked for. -/
def decimalDigits : Nat -> Int -> List Char
  | 0, _ => []
  | width + 1, number => decimalDigits width (number / 10) ++ [digitChar number]

def isoYear (year : Int) : List Char :=
  if 0 ≤ year ∧ year ≤ 9999 then decimalDigits 4 year
  else (if year < 0 then '-' else '+') :: decimalDigits 6 (year.natAbs : Int)

def toISOString (time : Int) : List Char :=
  let date := utcDate time
  isoYear date.year ++ ['-'] ++ decimalDigits 2 date.month ++ ['-'] ++
    decimalDigits 2 date.day ++ ['T'] ++
    decimalDigits 2 (time % dayLength / hourLength) ++ [':'] ++
    decimalDigits 2 (time % hourLength / minute) ++ [':'] ++
    decimalDigits 2 (time % minute / 1000) ++ ['.'] ++
    decimalDigits 3 (time % 1000) ++ ['Z']

def modeText : NoticeEmailMode -> String
  | .off => "off"
  | .immediate => "immediate"
  | .hourly => "hourly"
  | .daily => "daily"

def noticeWindow (schedule : NoticeSchedule) (now : Int) : String :=
  match schedule.mode with
  | .daily =>
      "daily:" ++ String.ofList ((toISOString (calendar now schedule.timeZone)).take 10)
  | mode =>
      let length := if mode = .hourly then 13 else 16
      modeText mode ++ ":" ++ String.ofList ((toISOString now).take length)

/-!
## Local clocks

A local clock shows every local time it does not skip. The first instant at or after a local
time is its first occurrence, or the end of the gap that skips it.
-/

/-- The zones the schedule is made for. Offsets are less than a day, and clocks are changed at
whole seconds by whole seconds; changes are rare and small. -/
structure TimeZone.Regular (zone : TimeZone) : Prop where
  neg_day_lt_offset : forall time, -dayLength < zone.offset time
  offset_lt_day : forall time, zone.offset time < dayLength
  offset_seconds : forall time, 1000 ∣ zone.offset time
  jump_seconds : forall time, JumpsAt zone.offset time -> 1000 ∣ time
  jumps_apart : JumpsApart zone.offset (72 * hourLength)
  shift_le : forall time, JumpsAt zone.offset time ->
    |zone.offset time - zone.offset (time - 1)| ≤ 3 * hourLength

/-- An instant is due for a local time when it is the first to show it, or when no instant
shows it and the instant ends the gap that skips it. -/
def IsDueFor (zone : TimeZone) (target instant : Int) : Prop :=
  IsLeast {time | localTime zone time = target} instant ∨
    (forall time, localTime zone time ≠ target) ∧
      localTime zone (instant - 1) < target ∧ target < localTime zone instant

/-- The instants at which a clock shows a local time or a later one. -/
def reaches (zone : TimeZone) (target : Int) : Set Int :=
  {time | target ≤ localTime zone time}

/-- The hours around a local time in which its offset is sampled. -/
def sampledFrom (target : Int) : Int :=
  target - 36 * hourLength

def sampledTo (target : Int) : Int :=
  target + 36 * hourLength

section Regular

variable {zone : TimeZone} {target : Int}

inductive OffsetsAround (zone : TimeZone) (target : Int) : Prop where
  | constant (offset : Int)
      (h : forall time, sampledFrom target ≤ time -> time ≤ sampledTo target ->
        zone.offset time = offset)
  | jump (instant before after : Int)
      (h : OneJump zone.offset (sampledFrom target) (sampledTo target) instant before after)

theorem TimeZone.Regular.offsetsAround (hzone : zone.Regular) (target : Int) :
    OffsetsAround zone target := by
  have hshort : sampledTo target - sampledFrom target ≤ 72 * hourLength := by
    unfold sampledTo sampledFrom
    omega
  rcases hzone.jumps_apart.cases_within hshort with hconstant | ⟨instant, before, after, hjump⟩
  · exact .constant _ hconstant
  · exact .jump instant before after hjump

theorem TimeZone.Regular.lt_of_early (hzone : zone.Regular) {time : Int}
    (h : time < sampledFrom target) : localTime zone time < target := by
  have := hzone.offset_lt_day time
  unfold sampledFrom hourLength at h
  unfold dayLength at this
  unfold localTime
  omega

theorem TimeZone.Regular.lt_of_late (hzone : zone.Regular) {time : Int}
    (h : sampledTo target < time) : target < localTime zone time := by
  have := hzone.neg_day_lt_offset time
  unfold sampledTo hourLength at h
  unfold dayLength at this
  unfold localTime
  omega

/-- A clock goes back by three hours at most. -/
theorem TimeZone.Regular.localTime_le (hzone : zone.Regular) {earlier later : Int}
    (h : earlier ≤ later) : localTime zone earlier ≤ localTime zone later + 3 * hourLength := by
  have hearlier := hzone.offset_lt_day earlier
  have hlater := hzone.neg_day_lt_offset later
  unfold dayLength at hearlier hlater
  unfold localTime
  by_cases hshort : later - earlier ≤ 72 * hourLength
  · rcases hzone.jumps_apart.cases_within hshort with hconstant | ⟨instant, before, after, hjump⟩
    · rw [hconstant later h (Int.le_refl _)]
      unfold hourLength
      omega
    · have hshift := hzone.shift_le instant hjump.jumps
      have hstart := hjump.after_start
      rw [hjump.value_before (instant - 1) (by omega) (by omega),
        hjump.value_after instant (Int.le_refl _) hjump.jump_le, abs_le] at hshift
      rw [hjump.value_before earlier (Int.le_refl _) hstart,
        hjump.value_after later hjump.jump_le (Int.le_refl _)]
      omega
  · unfold hourLength at hshort ⊢
    omega

/-!
## The first instant at or after a local time
-/

/-- The first instant at or after a local time where the offset changes once around it. -/
def firstReach (target instant before after : Int) : Int :=
  if target - before < instant then target - before else max instant (target - after)

theorem TimeZone.Regular.isLeast_of_constant (hzone : zone.Regular) {offset : Int}
    (h : forall time, sampledFrom target ≤ time -> time ≤ sampledTo target ->
      zone.offset time = offset) :
    IsLeast (reaches zone target) (target - offset) := by
  have hinside : sampledFrom target ≤ target - offset ∧ target - offset ≤ sampledTo target := by
    have heq := h target (by unfold sampledFrom hourLength; omega)
      (by unfold sampledTo hourLength; omega)
    have hlow := hzone.neg_day_lt_offset target
    have hhigh := hzone.offset_lt_day target
    unfold dayLength at hlow hhigh
    unfold sampledFrom sampledTo hourLength
    omega
  constructor
  · show target ≤ localTime zone (target - offset)
    rw [localTime, h _ hinside.left hinside.right]
    omega
  · intro time htime
    have htime : target ≤ localTime zone time := htime
    by_contra hbefore
    by_cases hearly : time < sampledFrom target
    · have := hzone.lt_of_early hearly
      omega
    · rw [localTime, h time (by omega) (by omega)] at htime
      omega

theorem OneJump.offset_bounds (hzone : zone.Regular) {instant before after : Int}
    (h : OneJump zone.offset (sampledFrom target) (sampledTo target) instant before after) :
    (-dayLength < before ∧ before < dayLength) ∧ -dayLength < after ∧ after < dayLength := by
  have hstart := h.after_start
  constructor
  · rw [← h.value_before (sampledFrom target) (Int.le_refl _) hstart]
    exact ⟨hzone.neg_day_lt_offset _, hzone.offset_lt_day _⟩
  · rw [← h.value_after instant (Int.le_refl _) h.jump_le]
    exact ⟨hzone.neg_day_lt_offset _, hzone.offset_lt_day _⟩

theorem TimeZone.Regular.isLeast_of_jump (hzone : zone.Regular) {instant before after : Int}
    (h : OneJump zone.offset (sampledFrom target) (sampledTo target) instant before after) :
    IsLeast (reaches zone target) (firstReach target instant before after) := by
  obtain ⟨⟨hlowBefore, hhighBefore⟩, hlowAfter, hhighAfter⟩ := OneJump.offset_bounds hzone h
  have hstart := h.after_start
  have hstop := h.jump_le
  have hbounds : sampledFrom target < target - before ∧ target - before < sampledTo target ∧
      sampledFrom target < target - after ∧ target - after < sampledTo target := by
    unfold dayLength at hlowBefore hhighBefore hlowAfter hhighAfter
    unfold sampledFrom sampledTo hourLength
    omega
  -- Before the jump the clock shows `before`, from it on `after`.
  have hclock : forall time, sampledFrom target ≤ time -> time ≤ sampledTo target ->
      (time < instant ∧ localTime zone time = time + before) ∨
        (instant ≤ time ∧ localTime zone time = time + after) := by
    intro time hfrom hto
    by_cases htime : time < instant
    · exact Or.inl ⟨htime, by rw [localTime, h.value_before time hfrom htime]⟩
    · exact Or.inr ⟨by omega, by rw [localTime, h.value_after time (by omega) hto]⟩
  have hfirst : sampledFrom target ≤ firstReach target instant before after ∧
      firstReach target instant before after ≤ sampledTo target := by
    unfold firstReach
    split <;> omega
  constructor
  · show target ≤ localTime zone (firstReach target instant before after)
    have := hclock _ hfirst.left hfirst.right
    unfold firstReach at this ⊢
    split at this
    · rename_i hreached
      rw [if_pos hreached]
      omega
    · rename_i hreached
      rw [if_neg hreached]
      omega
  · intro time htime
    have htime : target ≤ localTime zone time := htime
    by_contra hbefore
    by_cases hearly : time < sampledFrom target
    · have := hzone.lt_of_early hearly
      omega
    · have := hclock time (by omega) (by omega)
      unfold firstReach at hbefore
      split at hbefore <;> omega

theorem TimeZone.Regular.exists_isLeast (hzone : zone.Regular) (target : Int) :
    exists instant, IsLeast (reaches zone target) instant := by
  cases hzone.offsetsAround target with
  | constant offset h => exact ⟨_, hzone.isLeast_of_constant h⟩
  | jump instant before after h => exact ⟨_, hzone.isLeast_of_jump h⟩

theorem lt_of_isLeast {instant : Int} (h : IsLeast (reaches zone target) instant) :
    localTime zone (instant - 1) < target := by
  by_contra hnot
  have := h.right (show target ≤ localTime zone (instant - 1) by omega)
  omega

theorem jumpsAt_of_skips {instant : Int} (hbefore : localTime zone (instant - 1) < target)
    (hafter : target < localTime zone instant) : JumpsAt zone.offset instant := by
  intro heq
  unfold localTime at hbefore hafter
  omega

theorem TimeZone.Regular.localTime_le_of_isLeast (hzone : zone.Regular) {instant : Int}
    (h : IsLeast (reaches zone target) instant) :
    localTime zone instant ≤ target + 3 * hourLength := by
  by_cases hshows : localTime zone instant = target
  · unfold hourLength
    omega
  · have hreach : target ≤ localTime zone instant := h.left
    have hbefore := lt_of_isLeast h
    have hshift := hzone.shift_le instant (jumpsAt_of_skips hbefore (by omega))
    rw [abs_le] at hshift
    unfold localTime at hbefore ⊢
    omega

/-- After the end of a gap the clock shows only later times. -/
theorem TimeZone.Regular.lt_of_skips (hzone : zone.Regular) {instant : Int}
    (hbefore : localTime zone (instant - 1) < target) (hafter : target < localTime zone instant)
    (time : Int) :
    (time < instant -> localTime zone time < target) ∧
      (instant ≤ time -> target < localTime zone time) := by
  have hjumps := jumpsAt_of_skips hbefore hafter
  have hinside : sampledFrom target < instant ∧ instant ≤ sampledTo target := by
    have hlow := hzone.offset_lt_day instant
    have hhigh := hzone.neg_day_lt_offset (instant - 1)
    unfold dayLength at hlow hhigh
    unfold localTime at hbefore hafter
    unfold sampledFrom sampledTo hourLength
    omega
  cases hzone.offsetsAround target with
  | constant offset h =>
      exfalso
      apply hjumps
      rw [h (instant - 1) (by omega) (by omega), h instant (by omega) hinside.right]
  | jump jump before after h =>
      have hstart := h.after_start
      have hsame : jump = instant := by
        by_contra hother
        by_cases hearly : jump < instant
        · apply hjumps
          rw [h.value_after (instant - 1) (by omega) (by omega),
            h.value_after instant (by omega) hinside.right]
        · apply hjumps
          rw [h.value_before (instant - 1) (by omega) (by omega),
            h.value_before instant (by omega) (by omega)]
      cases hsame
      rw [localTime, h.value_before (instant - 1) (by omega) (by omega)] at hbefore
      rw [localTime, h.value_after instant (Int.le_refl _) h.jump_le] at hafter
      constructor
      · intro hearlier
        by_cases hearly : time < sampledFrom target
        · exact hzone.lt_of_early hearly
        · rw [localTime, h.value_before time (by omega) hearlier]
          omega
      · intro hlater
        by_cases hlate : sampledTo target < time
        · exact hzone.lt_of_late hlate
        · rw [localTime, h.value_after time hlater (by omega)]
          omega

/-- The due instant of a local time is the first that shows it or a later time. -/
theorem TimeZone.Regular.isDueFor_iff (hzone : zone.Regular) {instant : Int} :
    IsDueFor zone target instant ↔ IsLeast (reaches zone target) instant := by
  constructor
  · rintro (hshows | ⟨hskipped, hbefore, hafter⟩)
    · obtain ⟨first, hfirst⟩ := hzone.exists_isLeast target
      have hreach : target ≤ localTime zone first := hfirst.left
      by_cases hfirstShows : localTime zone first = target
      · have hsame : first = instant := by
          apply Int.le_antisymm
          · exact hfirst.right (le_of_eq hshows.left.symm)
          · exact hshows.right hfirstShows
        rw [← hsame]
        exact hfirst
      · -- The first instant to reach the time skips it, so no instant shows it.
        have hnever := hzone.lt_of_skips (lt_of_isLeast hfirst) (by omega) instant
        have hshown : localTime zone instant = target := hshows.left
        exfalso
        by_cases hearly : instant < first
        · have := hnever.left hearly
          omega
        · have := hnever.right (by omega)
          omega
    · constructor
      · exact Int.le_of_lt hafter
      · intro time htime
        have htime : target ≤ localTime zone time := htime
        by_contra hearly
        have := (hzone.lt_of_skips hbefore hafter time).left (by omega)
        omega
  · intro hleast
    have hreach : target ≤ localTime zone instant := hleast.left
    by_cases hshows : localTime zone instant = target
    · exact Or.inl ⟨hshows, fun time htime => hleast.right (le_of_eq (Eq.symm htime))⟩
    · have hbefore := lt_of_isLeast hleast
      have hafter : target < localTime zone instant := by omega
      refine Or.inr ⟨fun time htime => ?_, hbefore, hafter⟩
      have hnever := hzone.lt_of_skips hbefore hafter time
      by_cases hearly : time < instant
      · have := hnever.left hearly
        omega
      · have := hnever.right (by omega)
        omega

end Regular

end Notices
end Pertexo
