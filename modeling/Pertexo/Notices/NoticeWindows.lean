import Pertexo.Notices.DailyNotices

/-!
# Windows of daily notices

The window of a notice is named by the local day of its instant, which is the day it is due
for unless a gap carries it past midnight.
-/

namespace Pertexo
namespace Notices

open Library

theorem digitChar_injective {left right : Int} (h : digitChar left = digitChar right) :
    left % 10 = right % 10 := by
  have hdigits : forall first second : Fin 10,
      Char.ofNat (48 + first.val) = Char.ofNat (48 + second.val) -> first.val = second.val := by
    decide
  have := hdigits ⟨(left % 10).toNat, by omega⟩ ⟨(right % 10).toNat, by omega⟩ h
  dsimp only at this
  omega

@[simp] theorem length_decimalDigits (width : Nat) :
    forall number : Int, (decimalDigits width number).length = width := by
  induction width with
  | zero => exact fun _ => rfl
  | succ width ih =>
      intro number
      rw [decimalDigits, List.length_append, ih]
      rfl

theorem decimalDigits_injective (width : Nat) :
    forall {left right : Int}, 0 ≤ left -> 0 ≤ right -> left < 10 ^ width -> right < 10 ^ width ->
      decimalDigits width left = decimalDigits width right -> left = right := by
  induction width with
  | zero =>
      intro left right hleft hright hleftEnd hrightEnd _
      rw [pow_zero] at hleftEnd hrightEnd
      omega
  | succ width ih =>
      intro left right hleft hright hleftEnd hrightEnd h
      rw [decimalDigits, decimalDigits] at h
      obtain ⟨hrest, hlast⟩ := List.append_inj h (by rw [length_decimalDigits,
        length_decimalDigits])
      have hdigit := digitChar_injective (List.cons.inj hlast).left
      rw [pow_succ] at hleftEnd hrightEnd
      have hdiv := ih (by omega) (by omega) (by omega) (by omega) hrest
      omega

/-- The text of a date with a year of four digits. -/
def dateText (date : CivilDate) : List Char :=
  decimalDigits 4 date.year ++ ['-'] ++ decimalDigits 2 date.month ++ ['-'] ++
    decimalDigits 2 date.day

theorem year_le_of_lt {time : Int} (h : time < latestTime) : (utcDate time).year ≤ 9999 := by
  obtain ⟨hmonth, _, hday, _⟩ := civilOfDay_bounds (time / dayLength)
  apply year_of_day_lt hmonth hday
  rw [dayOfCivil_civilOfDay]
  rw [latestTime] at h
  exact (Int.ediv_lt_iff_lt_mul (by decide)).mpr h

theorem take_toISOString {time : Int} (hearly : earliestTime ≤ time) (hlate : time < latestTime) :
    (toISOString time).take 10 = dateText (utcDate time) := by
  have hfirst := le_year_of_le hearly
  have hlast := year_le_of_lt hlate
  have hlength : (dateText (utcDate time)).length = 10 := by
    simp only [dateText, List.length_append, length_decimalDigits, List.length_cons,
      List.length_nil]
  unfold toISOString isoYear
  dsimp only
  rw [if_pos (by omega)]
  show (dateText (utcDate time) ++ ['T'] ++ _ ++ [':'] ++ _ ++ [':'] ++ _ ++ ['.'] ++ _ ++
    ['Z']).take 10 = _
  simp only [List.append_assoc]
  exact List.take_left' hlength

theorem dateText_injective {left right : CivilDate} (hleft : 0 ≤ left.year ∧ left.year ≤ 9999)
    (hright : 0 ≤ right.year ∧ right.year ≤ 9999)
    (hmonths : (1 ≤ left.month ∧ left.month ≤ 12) ∧ 1 ≤ right.month ∧ right.month ≤ 12)
    (hdays : (1 ≤ left.day ∧ left.day ≤ 31) ∧ 1 ≤ right.day ∧ right.day ≤ 31)
    (h : dateText left = dateText right) : left = right := by
  unfold dateText at h
  have hlength : forall (width : Nat) (first second : Int),
      (decimalDigits width first).length = (decimalDigits width second).length := by
    intro width first second
    rw [length_decimalDigits, length_decimalDigits]
  obtain ⟨hdate, hday⟩ := List.append_inj' h (hlength 2 _ _)
  obtain ⟨hdate, _⟩ := List.append_inj' hdate rfl
  obtain ⟨hdate, hmonth⟩ := List.append_inj' hdate (hlength 2 _ _)
  obtain ⟨hyear, _⟩ := List.append_inj' hdate rfl
  have hyears := decimalDigits_injective 4 hleft.left hright.left (by omega) (by omega) hyear
  have hmonths := decimalDigits_injective 2 (by omega) (by omega) (by omega) (by omega) hmonth
  have hdays := decimalDigits_injective 2 (by omega) (by omega) (by omega) (by omega) hday
  cases left
  cases right
  cases hyears
  cases hmonths
  cases hdays
  rfl

section Windows

variable {zone : TimeZone} {hour : Int}

structure HasWindow (zone : TimeZone) (time : Int) : Prop where
  early : earliestTime + dayLength ≤ localTime zone time
  late : localTime zone time < latestTime

theorem noticeWindow_daily {schedule : NoticeSchedule} (hmode : schedule.mode = .daily)
    {time : Int} (h : HasWindow schedule.timeZone time) :
    noticeWindow schedule time = "daily:" ++ String.ofList
      (dateText (civilOfDay (localTime schedule.timeZone time / dayLength))) := by
  have hearly := h.early
  have hlate := h.late
  have hstart : earliestTime ≤ localTime schedule.timeZone time := by
    unfold dayLength at hearly
    omega
  have hcalendar := calendar_eq hstart
  have hday : calendar time schedule.timeZone / dayLength =
      localTime schedule.timeZone time / dayLength := by
    rw [hcalendar]
    unfold dayLength
    omega
  unfold noticeWindow
  rw [hmode]
  show "daily:" ++ String.ofList ((toISOString (calendar time schedule.timeZone)).take 10) = _
  rw [take_toISOString, utcDate, hday]
  · rw [hcalendar]
    unfold dayLength at hearly
    omega
  · rw [hcalendar]
    omega

theorem chars_of_append {name : String} {left right : List Char}
    (h : name ++ String.ofList left = name ++ String.ofList right) : left = right := by
  have hchars := congrArg String.toList h
  rw [String.toList_append, String.toList_append, String.toList_ofList,
    String.toList_ofList] at hchars
  exact List.append_cancel_left hchars

theorem noticeWindow_eq_iff {schedule : NoticeSchedule} (hmode : schedule.mode = .daily)
    {first second : Int} (hfirst : HasWindow schedule.timeZone first)
    (hsecond : HasWindow schedule.timeZone second) :
    noticeWindow schedule first = noticeWindow schedule second ↔
      localTime schedule.timeZone first / dayLength =
        localTime schedule.timeZone second / dayLength := by
  have hyears : forall {time : Int}, HasWindow schedule.timeZone time ->
      0 ≤ (utcDate (localTime schedule.timeZone time)).year ∧
        (utcDate (localTime schedule.timeZone time)).year ≤ 9999 := by
    intro time h
    have hearly := h.early
    constructor
    · have hstart : earliestTime ≤ localTime schedule.timeZone time := by
        unfold dayLength at hearly
        omega
      have := le_year_of_le hstart
      omega
    · exact year_le_of_lt h.late
  rw [noticeWindow_daily hmode hfirst, noticeWindow_daily hmode hsecond]
  constructor
  · intro h
    have htext := chars_of_append h
    apply civilOfDay_injective
    obtain ⟨hmonth, hlastMonth, hday, hlastDay⟩ :=
      civilOfDay_bounds (localTime schedule.timeZone first / dayLength)
    obtain ⟨hmonth', hlastMonth', hday', hlastDay'⟩ :=
      civilOfDay_bounds (localTime schedule.timeZone second / dayLength)
    exact dateText_injective (hyears hfirst) (hyears hsecond)
      ⟨⟨hmonth, hlastMonth⟩, hmonth', hlastMonth'⟩ ⟨⟨hday, hlastDay⟩, hday', hlastDay'⟩ htext
  · intro h
    rw [h]

/-!
## The day an instant shows
-/

theorem TimeZone.Regular.shown_day (hzone : zone.Regular) {day due : Int} (hhour : 0 ≤ hour)
    (hhourEnd : hour ≤ 23) (hdue : IsLeast (reaches zone (hourOn hour day)) due) :
    (localTime zone due / dayLength = day ∨ localTime zone due / dayLength = day + 1) ∧
      (PassesMidnight zone hour due ↔ localTime zone due / dayLength = day + 1) := by
  have hreached : hourOn hour day ≤ localTime zone due := hdue.left
  have hshown := hzone.localTime_le_of_isLeast hdue
  have hbefore := lt_of_isLeast hdue
  constructor
  · unfold hourOn dayLength hourLength at hreached hshown
    unfold dayLength
    omega
  · constructor
    · rintro ⟨skipped, hskippedBefore, hmidnight⟩
      have hafter : hourOn hour skipped < localTime zone due := by
        unfold hourOn hourLength
        unfold dayLength at hmidnight ⊢
        omega
      have hskipped : IsLeast (reaches zone (hourOn hour skipped)) due := by
        apply hzone.isDueFor_iff.mp
        refine Or.inr ⟨fun time htime => ?_, hskippedBefore, hafter⟩
        have hnever := hzone.lt_of_skips hskippedBefore hafter time
        by_cases hearly : time < due
        · have := hnever.left hearly
          omega
        · have := hnever.right (by omega)
          omega
      have hsame : skipped = day := by
        have hle := (hzone.day_lt_iff hskipped hdue).not.mp (Int.lt_irrefl _)
        have hge := (hzone.day_lt_iff hdue hskipped).not.mp (Int.lt_irrefl _)
        omega
      rw [hsame] at hmidnight
      unfold hourOn dayLength hourLength at hshown
      unfold dayLength at hmidnight ⊢
      omega
    · intro hday
      refine ⟨day, hbefore, ?_⟩
      unfold dayLength at hday ⊢
      omega

theorem hasWindow_of_due {day due now : Int} (hzone : zone.Regular) (hnow : Supported now)
    (hhourEnd : hour ≤ 23) (hday : day ≤ localTime zone now / dayLength + 2)
    (hdue : IsLeast (reaches zone (hourOn hour day)) due) (hafter : now < due) :
    HasWindow zone due := by
  have hshown := hzone.localTime_le_of_isLeast hdue
  have hoffset := hzone.offset_lt_day now
  have hdueOffset := hzone.neg_day_lt_offset due
  have hlate := hnow.early
  have hearly := hnow.late
  constructor
  · unfold localTime
    unfold dayLength at *
    omega
  · rw [latestTime_eq] at hlate ⊢
    unfold hourOn hourLength at hshown
    unfold localTime at hday hshown ⊢
    unfold dayLength at *
    omega

/-- Two due instants that both end gaps are far apart. -/
theorem TimeZone.Regular.not_passesMidnight_next (hzone : zone.Regular) {day first second : Int}
    (hhour : 0 ≤ hour) (hhourEnd : hour ≤ 23)
    (hfirst : IsLeast (reaches zone (hourOn hour day)) first)
    (hsecond : IsLeast (reaches zone (hourOn hour (day + 1))) second)
    (hpasses : PassesMidnight zone hour first) : ¬ PassesMidnight zone hour second := by
  intro hother
  have hjumps : forall {due : Int}, PassesMidnight zone hour due ->
      JumpsAt zone.offset due := by
    rintro due ⟨skipped, hbefore, hmidnight⟩
    apply jumpsAt_of_skips hbefore
    unfold hourOn hourLength
    unfold dayLength at hmidnight ⊢
    omega
  have hlt := hzone.lt_of_day_lt (Int.lt_succ day) hfirst hsecond
  have hapart := hzone.jumps_apart first second (hjumps hpasses) (hjumps hother) hlt
  -- Between the two jumps the clock runs on for three days, past the second local time.
  have hconstant : zone.offset (first + 72 * hourLength) = zone.offset first := by
    have hquiet : forall time, first < time -> time ≤ first + 72 * hourLength ->
        ¬ JumpsAt zone.offset time := by
      intro time hstart hstop hjump
      have := hzone.jumps_apart first time (hjumps hpasses) hjump hstart
      omega
    exact constant_between hquiet (by unfold hourLength; omega) (Int.le_refl _)
  have hday := ((hzone.shown_day hhour hhourEnd hfirst).right.mp hpasses)
  have hpassed : first + 72 * hourLength ∈ reaches zone (hourOn hour (day + 1)) := by
    show hourOn hour (day + 1) ≤ localTime zone (first + 72 * hourLength)
    rw [localTime, hconstant]
    unfold localTime dayLength at hday
    unfold hourOn dayLength hourLength
    omega
  have hle := hsecond.right hpassed
  omega

/-- The notice that is due next after one that is due on a day is due on the day after. -/
theorem TimeZone.Regular.isLeast_next (hzone : zone.Regular) {day first second : Int}
    (hfirst : IsLeast (reaches zone (hourOn hour day)) first)
    (hnext : IsNextDue zone hour first second) :
    IsLeast (reaches zone (hourOn hour (day + 1))) second := by
  obtain ⟨following, hfollowing⟩ := hzone.exists_isLeast (hourOn hour (day + 1))
  have hlt := hzone.lt_of_day_lt (Int.lt_succ day) hfirst hfollowing
  have hle := hnext.right ⟨hlt, day + 1, hzone.isDueFor_iff.mpr hfollowing⟩
  obtain ⟨hafter, other, hother⟩ := hnext.left
  rw [hzone.isDueFor_iff] at hother
  have hday := (hzone.day_lt_iff hfirst hother).mp hafter
  have hsame : other = day + 1 := by
    have := (hzone.day_lt_iff hfollowing hother).not.mp (by omega)
    omega
  rw [← hsame]
  exact hother

end Windows

/-!
## Daily notices come once for each local day
-/

section Schedule

variable {schedule : NoticeSchedule}

theorem nextNoticeDue_eq_iff (hmode : schedule.mode = .daily)
    (hzone : schedule.timeZone.Regular) {now : Int} (hnow : Supported now) (due : Int) :
    nextNoticeDue schedule now = .ok (some due) ↔
      IsNextDue schedule.timeZone schedule.hour now due := by
  obtain ⟨found, day, hfound, _, _, hnext⟩ := nextNoticeDue_daily hmode hzone hnow
  constructor
  · intro h
    rw [hfound] at h
    cases h
    exact hnext
  · intro h
    rw [hfound, hnext.unique h]

theorem noticeWindow_next (hmode : schedule.mode = .daily)
    (hzone : schedule.timeZone.Regular) {earlier later first second : Int}
    (hearlier : Supported earlier) (hlater : Supported later)
    (hfirst : nextNoticeDue schedule earlier = .ok (some first))
    (hsecond : nextNoticeDue schedule later = .ok (some second)) (hlt : first < second) :
    noticeWindow schedule first = noticeWindow schedule second ↔
      PassesMidnight schedule.timeZone schedule.hour first ∧
        nextNoticeDue schedule first = .ok (some second) := by
  have hhour := schedule.hour_nonneg
  have hhourEnd := schedule.hour_le
  obtain ⟨found, day, hfound, hday, hleast, hnext⟩ := nextNoticeDue_daily hmode hzone hearlier
  rw [hfirst] at hfound
  cases hfound
  obtain ⟨found, other, hfound, hother, hleastOther, hnextOther⟩ :=
    nextNoticeDue_daily hmode hzone hlater
  rw [hsecond] at hfound
  cases hfound
  have hfirstSupported : Supported first := by
    have hafter : earlier < first := hnext.left.left
    constructor
    · have := hearlier.late
      omega
    · have hle : first ≤ later := by
        by_contra hnot
        have := hnextOther.right ⟨by omega, day, hzone.isDueFor_iff.mpr hleast⟩
        omega
      have := hlater.early
      omega
  have hshown := hzone.shown_day hhour hhourEnd hleast
  have hshownOther := hzone.shown_day hhour hhourEnd hleastOther
  have hdays := (hzone.day_lt_iff hleast hleastOther).mp hlt
  rw [noticeWindow_eq_iff hmode
    (hasWindow_of_due hzone hearlier hhourEnd hday hleast hnext.left.left)
    (hasWindow_of_due hzone hlater hhourEnd hother hleastOther hnextOther.left.left),
    nextNoticeDue_eq_iff hmode hzone hfirstSupported]
  constructor
  · intro hsame
    have hfollows : other = day + 1 := by omega
    constructor
    · apply hshown.right.mpr
      omega
    · cases hfollows
      apply hzone.isNextDue_of_day hleastOther hlt
      intro between due hbetween hdue
      have := (hzone.day_lt_iff hleast hdue).not.mpr (by omega)
      omega
  · rintro ⟨hpasses, hfollows⟩
    have hleastNext := hzone.isLeast_next hleast hfollows
    have hnotPasses := hzone.not_passesMidnight_next hhour hhourEnd hleast hleastNext hpasses
    have hshownNext := hzone.shown_day hhour hhourEnd hleastNext
    rw [hshownNext.right] at hnotPasses
    have hpassed := hshown.right.mp hpasses
    omega

/-- The next daily notice is due at the first due instant after now. Two due instants have
different windows unless the earlier one ends a gap past midnight and the other follows it. -/
theorem daily_notices (hmode : schedule.mode = .daily) (hzone : schedule.timeZone.Regular) :
    (forall now, Supported now -> exists due, nextNoticeDue schedule now = .ok (some due) ∧
        IsLeast {time | now < time ∧ IsDue schedule.timeZone schedule.hour time} due) ∧
      forall earlier later first second, Supported earlier -> Supported later ->
        nextNoticeDue schedule earlier = .ok (some first) ->
        nextNoticeDue schedule later = .ok (some second) -> first < second ->
        (noticeWindow schedule first = noticeWindow schedule second ↔
          PassesMidnight schedule.timeZone schedule.hour first ∧
            nextNoticeDue schedule first = .ok (some second)) := by
  constructor
  · intro now hnow
    obtain ⟨due, _, hdue, _, _, hnext⟩ := nextNoticeDue_daily hmode hzone hnow
    exact ⟨due, hdue, hnext⟩
  · intro earlier later first second hearlier hlater hfirst hsecond hlt
    exact noticeWindow_next hmode hzone hearlier hlater hfirst hsecond hlt

end Schedule

/-- The instant at which the sample zone puts its clocks from 23:00 on to midnight. -/
def midnightChange : Int :=
  dateUTC 2026 2 29 1 0 0

def midnightZone : TimeZone where
  offset time := if time < midnightChange then -2 * hourLength else -hourLength

def lateSchedule : NoticeSchedule where
  mode := .daily
  hour := 23
  timeZone := midnightZone
  hour_nonneg := by decide
  hour_le := by decide

def utcSchedule : NoticeSchedule where
  mode := .daily
  hour := 9
  timeZone := { offset := fun _ => 0 }
  hour_nonneg := by decide
  hour_le := by decide

theorem midnightZone_offset (time : Int) :
    (time < midnightChange ∧ midnightZone.offset time = -7200000) ∨
      (midnightChange ≤ time ∧ midnightZone.offset time = -3600000) := by
  by_cases h : time < midnightChange
  · exact Or.inl ⟨h, if_pos h⟩
  · exact Or.inr ⟨Int.not_lt.mp h, if_neg h⟩

theorem midnightZone_jump {time : Int} (h : JumpsAt midnightZone.offset time) :
    time = midnightChange := by
  have hbefore := midnightZone_offset (time - 1)
  have hafter := midnightZone_offset time
  unfold JumpsAt at h
  omega

theorem midnightZone_regular : midnightZone.Regular where
  neg_day_lt_offset time := by
    have := midnightZone_offset time
    unfold dayLength
    omega
  offset_lt_day time := by
    have := midnightZone_offset time
    unfold dayLength
    omega
  offset_seconds time := by
    have := midnightZone_offset time
    omega
  jump_seconds time h := by
    rw [midnightZone_jump h]
    decide
  jumps_apart first second hfirst hsecond hlt := by
    rw [midnightZone_jump hfirst, midnightZone_jump hsecond] at hlt
    exact absurd hlt (Int.lt_irrefl _)
  shift_le time _ := by
    have hbefore := midnightZone_offset (time - 1)
    have hafter := midnightZone_offset time
    rw [abs_le]
    unfold hourLength
    omega

theorem lateSchedule_supported : Supported (dateUTC 2026 2 28 12 0 0) := by
  constructor <;> decide

theorem daily_notices_sample :
    (exists due, nextNoticeDue lateSchedule (dateUTC 2026 2 28 12 0 0) = .ok (some due) ∧
        IsLeast {time | dateUTC 2026 2 28 12 0 0 < time ∧ IsDue midnightZone 23 time} due) ∧
      (noticeWindow lateSchedule (dateUTC 2026 2 28 1 0 0) =
          noticeWindow lateSchedule (dateUTC 2026 2 29 1 0 0) ↔
        PassesMidnight midnightZone 23 (dateUTC 2026 2 28 1 0 0) ∧
          nextNoticeDue lateSchedule (dateUTC 2026 2 28 1 0 0) =
            .ok (some (dateUTC 2026 2 29 1 0 0))) := by
  have hdaily : lateSchedule.mode = .daily := rfl
  constructor
  · exact (daily_notices hdaily midnightZone_regular).left _ lateSchedule_supported
  · apply (daily_notices hdaily midnightZone_regular).right (dateUTC 2026 2 27 12 0 0)
      (dateUTC 2026 2 28 12 0 0)
    · constructor <;> decide
    · exact lateSchedule_supported
    · decide +kernel
    · decide +kernel
    · decide

/-- A notice that a gap carries past midnight shares its window with the notice of the next
day. Dates of the first century are taken for dates after 1900, and the windows of the years
after 9999 are named by the month. -/
theorem daily_windows_shared :
    (midnightZone.Regular ∧
        nextNoticeDue lateSchedule (dateUTC 2026 2 28 12 0 0) =
          .ok (some (dateUTC 2026 2 29 1 0 0)) ∧
        nextNoticeDue lateSchedule (dateUTC 2026 2 29 1 0 0) =
          .ok (some (dateUTC 2026 2 30 0 0 0)) ∧
        noticeWindow lateSchedule (dateUTC 2026 2 29 1 0 0) = "daily:2026-03-29" ∧
        noticeWindow lateSchedule (dateUTC 2026 2 30 0 0 0) = "daily:2026-03-29") ∧
      (nextNoticeDue utcSchedule (-60589296000000) = .ok (some (dateUTC 1950 0 1 9 0 0)) ∧
        IsDueFor utcSchedule.timeZone (hourOn 9 (-701265)) (-60589263600000)) ∧
      (nextNoticeDue utcSchedule (dateUTC 12026 2 28 9 0 0) =
          .ok (some (dateUTC 12026 2 29 9 0 0)) ∧
        nextNoticeDue utcSchedule (dateUTC 12026 2 29 9 0 0) =
          .ok (some (dateUTC 12026 2 30 9 0 0)) ∧
        noticeWindow utcSchedule (dateUTC 12026 2 29 9 0 0) = "daily:+012026-03" ∧
        noticeWindow utcSchedule (dateUTC 12026 2 30 9 0 0) = "daily:+012026-03") := by
  refine ⟨⟨midnightZone_regular, ?_⟩, ⟨?_, ?_⟩, ?_⟩
  · decide +kernel
  · decide +kernel
  · apply Or.inl
    constructor
    · show (-60589263600000 : Int) + 0 = hourOn 9 (-701265)
      decide
    · intro time htime
      have htime : time + 0 = hourOn 9 (-701265) := htime
      unfold hourOn dayLength hourLength at htime
      omega
  · decide +kernel

end Notices
end Pertexo
