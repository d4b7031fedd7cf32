import Pertexo.Notices.LocalClocks

/-!
# Daily notices

Local hours are resolved to their due instants.
-/

namespace Pertexo
namespace Notices

open Library

/-!
## The calendar shows the local second
-/

/-- The start of the year 100, before which dates are taken for years after 1900. -/
def earliestTime : Int :=
  dayOfCivil { year := 100, month := 1, day := 1 } * dayLength

/-- The start of the year 10000, whose dates are longer texts. -/
def latestTime : Int :=
  dayOfCivil { year := 10000, month := 1, day := 1 } * dayLength

theorem earliestTime_eq : earliestTime = -683003 * dayLength :=
  rfl

theorem latestTime_eq : latestTime = 2932897 * dayLength :=
  rfl

theorem le_year_of_le {time : Int} (h : earliestTime ≤ time) : 100 ≤ (utcDate time).year := by
  obtain ⟨_, hlast, _, hend⟩ := civilOfDay_bounds (time / dayLength)
  apply year_of_le_day hlast hend
  rw [dayOfCivil_civilOfDay]
  rw [earliestTime] at h
  exact (Int.le_ediv_iff_mul_le (by decide)).mpr h

theorem dateUTC_utcDate {wall : Int} (hwall : earliestTime ≤ wall)
    (days hour minutes seconds : Int) :
    dateUTC (utcDate wall).year ((utcDate wall).month - 1) ((utcDate wall).day + days) hour
        minutes seconds =
      (wall / dayLength + days) * dayLength + hour * hourLength + minutes * minute +
        seconds * 1000 := by
  have hyear := le_year_of_le hwall
  obtain ⟨hfirst, hlast, _⟩ := civilOfDay_bounds (wall / dayLength)
  have hdate := dayOfCivil_day (utcDate wall)
  rw [utcDate, dayOfCivil_civilOfDay, ← utcDate] at hdate
  have hmonth : ((utcDate wall).month - 1) / 12 = 0 := by
    unfold utcDate
    omega
  have hmonthOf : ((utcDate wall).month - 1) % 12 + 1 = (utcDate wall).month := by
    unfold utcDate
    omega
  unfold dateUTC
  dsimp only
  rw [if_neg (by omega), hmonth, hmonthOf, Int.add_zero]
  have hsum : forall first : Int, first + (utcDate wall).day - 1 = wall / dayLength ->
      first + ((utcDate wall).day + days) - 1 = wall / dayLength + days := by
    omega
  rw [hsum _ hdate]

theorem calendar_eq {zone : TimeZone} {time : Int} (h : earliestTime ≤ localTime zone time) :
    calendar time zone = localTime zone time / 1000 * 1000 := by
  have hyear := le_year_of_le h
  have hdate := dateUTC_utcDate h 0 (localTime zone time % dayLength / hourLength)
    (localTime zone time % hourLength / minute) (localTime zone time % minute / 1000)
  rw [Int.add_zero, Int.add_zero] at hdate
  unfold calendar formatToParts
  dsimp only
  rw [if_pos (by omega), hdate]
  unfold dayLength hourLength minute
  omega

theorem dvd_localTime {zone : TimeZone} (hzone : zone.Regular) {time : Int}
    (h : 1000 ∣ time) : 1000 ∣ localTime zone time :=
  Int.dvd_add h (hzone.offset_seconds time)

theorem calendar_of_dvd {zone : TimeZone} (hzone : zone.Regular) {time : Int}
    (hdvd : 1000 ∣ time) (h : earliestTime ≤ localTime zone time) :
    calendar time zone = localTime zone time := by
  rw [calendar_eq h, Int.ediv_mul_cancel (dvd_localTime hzone hdvd)]

/-!
## The candidates
-/

section Candidates

variable {zone : TimeZone} {target : Int}

structure Resolvable (target : Int) : Prop where
  seconds : 1000 ∣ target
  late : earliestTime + 5 * dayLength ≤ target

theorem Resolvable.earliest_le (htarget : Resolvable target) (hzone : zone.Regular) {time : Int}
    (h : sampledFrom target ≤ time + 2 * dayLength) : earliestTime ≤ localTime zone time := by
  have hlate := htarget.late
  have hoffset := hzone.neg_day_lt_offset time
  unfold sampledFrom hourLength dayLength at h
  unfold dayLength at hlate hoffset
  unfold localTime
  omega

theorem mem_sampleHours {hours : Int} (h : hours ∈ sampleHours) : -36 ≤ hours ∧ hours ≤ 36 := by
  rw [sampleHours, List.mem_map] at h
  obtain ⟨step, hstep, rfl⟩ := h
  rw [List.mem_range] at hstep
  omega

theorem sampled_inside (target : Int) {hours : Int} (h : hours ∈ sampleHours) :
    sampledFrom target ≤ target + hours * hourLength ∧
      target + hours * hourLength ≤ sampledTo target := by
  have := mem_sampleHours h
  unfold sampledFrom sampledTo hourLength
  omega

theorem sampled_offset (hzone : zone.Regular) (htarget : Resolvable target) {hours : Int}
    (h : hours ∈ sampleHours) :
    calendar (target + hours * hourLength) zone - (target + hours * hourLength) =
      zone.offset (target + hours * hourLength) := by
  have hdvd : 1000 ∣ target + hours * hourLength :=
    Int.dvd_add htarget.seconds (Int.dvd_mul_of_dvd_right (by decide))
  have hinside := sampled_inside target h
  rw [calendar_of_dvd hzone hdvd (htarget.earliest_le hzone (by unfold dayLength; omega)),
    localTime]
  omega

theorem mem_candidates_iff (hzone : zone.Regular) (htarget : Resolvable target)
    {candidate : Int} :
    candidate ∈ candidates target zone ↔
      exists hours, hours ∈ sampleHours ∧
        candidate = target - zone.offset (target + hours * hourLength) := by
  rw [candidates, (List.perm_insertionSort _ _).mem_iff, List.mem_map]
  constructor
  · rintro ⟨offset, hoffset, rfl⟩
    rw [sampledOffsets, List.mem_eraseDups, List.mem_map] at hoffset
    obtain ⟨hours, hhours, rfl⟩ := hoffset
    exact ⟨hours, hhours, by rw [sampled_offset hzone htarget hhours]⟩
  · rintro ⟨hours, hhours, rfl⟩
    refine ⟨zone.offset (target + hours * hourLength), ?_, rfl⟩
    rw [sampledOffsets, List.mem_eraseDups, List.mem_map]
    exact ⟨hours, hhours, sampled_offset hzone htarget hhours⟩

theorem candidates_sorted (target : Int) (zone : TimeZone) :
    (candidates target zone).Pairwise (· ≤ ·) :=
  List.pairwise_insertionSort _ _

theorem candidate_facts (hzone : zone.Regular) (htarget : Resolvable target) {candidate : Int}
    (h : candidate ∈ candidates target zone) :
    1000 ∣ candidate ∧ sampledFrom target + dayLength / 2 ≤ candidate ∧
      candidate < target + dayLength ∧ calendar candidate zone = localTime zone candidate := by
  obtain ⟨hours, hhours, rfl⟩ := (mem_candidates_iff hzone htarget).mp h
  have hlow := hzone.neg_day_lt_offset (target + hours * hourLength)
  have hhigh := hzone.offset_lt_day (target + hours * hourLength)
  have hdvd : 1000 ∣ target - zone.offset (target + hours * hourLength) :=
    Int.dvd_sub htarget.seconds (hzone.offset_seconds _)
  have hfrom : sampledFrom target + dayLength / 2 ≤
      target - zone.offset (target + hours * hourLength) := by
    unfold dayLength at hhigh ⊢
    unfold sampledFrom hourLength at *
    omega
  refine ⟨hdvd, hfrom, by omega, ?_⟩
  apply calendar_of_dvd hzone hdvd
  apply htarget.earliest_le hzone
  unfold dayLength at hfrom ⊢
  omega

theorem candidate_of_offset (hzone : zone.Regular) (htarget : Resolvable target) {time : Int}
    (hfrom : sampledFrom target ≤ time) (hto : time ≤ sampledTo target) :
    target - zone.offset time ∈ candidates target zone := by
  rw [mem_candidates_iff hzone htarget]
  have hstart : target + -36 * hourLength = sampledFrom target := by
    unfold sampledFrom hourLength
    omega
  have hend : target + 36 * hourLength = sampledTo target := rfl
  cases hzone.offsetsAround target with
  | constant offset h =>
      refine ⟨-36, by decide, ?_⟩
      rw [hstart, h time hfrom hto, h _ (Int.le_refl _) (by omega)]
  | jump instant before after h =>
      have hafter := h.after_start
      have hle := h.jump_le
      by_cases hearly : time < instant
      · refine ⟨-36, by decide, ?_⟩
        rw [hstart, h.value_before time hfrom hearly, h.value_before _ (Int.le_refl _) hafter]
      · refine ⟨36, by decide, ?_⟩
        rw [hend, h.value_after time (by omega) hto, h.value_after _ hle (Int.le_refl _)]

end Candidates

/-!
## The search
-/

theorem searchHour_eq {zone : TimeZone} {target due : Int} (hdue : 1000 ∣ due) (fuel : Nat) :
    forall {low high : Int}, 1000 ∣ low -> 1000 ∣ high -> low < due -> due ≤ high ->
      (forall middle, 1000 ∣ middle -> low ≤ middle ->
        (target ≤ calendar middle zone ↔ due ≤ middle)) ->
      high - low < fuel -> searchHour target zone fuel low high = .ok due := by
  induction fuel with
  | zero =>
      intro low high _ _ hlow hhigh _ hfuel
      omega
  | succ fuel ih =>
      intro low high hlowDvd hhighDvd hlow hhigh hmonotone hfuel
      rw [searchHour]
      by_cases hwide : 1000 < high - low
      · rw [if_pos hwide]
        dsimp only
        have hmiddleDvd : 1000 ∣ (low + high) / 2000 * 1000 := Int.dvd_mul_left _ 1000
        have hinside : low < (low + high) / 2000 * 1000 ∧
            (low + high) / 2000 * 1000 < high := by
          omega
        by_cases hreached : target ≤ calendar ((low + high) / 2000 * 1000) zone
        · rw [if_pos hreached]
          have hle := (hmonotone _ hmiddleDvd (by omega)).mp hreached
          exact ih hlowDvd hmiddleDvd hlow hle hmonotone (by omega)
        · rw [if_neg hreached]
          have hlt : (low + high) / 2000 * 1000 < due := by
            by_contra hnot
            exact hreached ((hmonotone _ hmiddleDvd (by omega)).mpr (by omega))
          exact ih hmiddleDvd hhighDvd hlt hhigh
            (fun middle hmiddle hle => hmonotone middle hmiddle (by omega)) (by omega)
      · rw [if_neg hwide]
        congr 1
        omega

/-!
## The resolved hour
-/

theorem isLeast_of_sorted {values : List Int} {keep : Int -> Bool} {first : Int}
    {rest : List Int} (hsorted : values.Pairwise (· ≤ ·))
    (h : values.filter keep = first :: rest) {value : Int} (hvalue : value ∈ values)
    (hkeep : keep value = true) : first ≤ value := by
  have hkept := hsorted.filter keep
  rw [h] at hkept
  have hmem : value ∈ values.filter keep := List.mem_filter.mpr ⟨hvalue, hkeep⟩
  rw [h] at hmem
  rcases List.mem_cons.mp hmem with heq | hrest
  · exact le_of_eq heq.symm
  · exact List.rel_of_pairwise_cons hkept hrest

section Resolved

variable {zone : TimeZone} {target due : Int}

theorem localHour_of_exact {first : Int} {rest : List Int}
    (h : ((candidates target zone).filter fun instant => calendar instant zone = target) =
      first :: rest) : localHour target zone = .ok first := by
  unfold localHour
  dsimp only
  rw [h]

theorem localHour_of_above {above : Int}
    (h : ((candidates target zone).filter fun instant => calendar instant zone = target) = [])
    (habove : ((candidates target zone).find? fun instant => target < calendar instant zone) =
      some above) :
    localHour target zone =
      let low := (candidates target zone).head?.getD above - minute
      searchHour target zone ((above - low).toNat + 1) low above := by
  unfold localHour
  dsimp only
  rw [h, habove]

theorem localHour_of_shown (hzone : zone.Regular) (htarget : Resolvable target)
    (hdue : IsLeast (reaches zone target) due) (hshown : localTime zone due = target) :
    localHour target zone = .ok due := by
  have hlow := hzone.neg_day_lt_offset due
  have hhigh := hzone.offset_lt_day due
  have heq : due = target - zone.offset due := by
    unfold localTime at hshown
    omega
  have hmem : due ∈ candidates target zone := by
    have hinside : sampledFrom target ≤ due ∧ due ≤ sampledTo target := by
      unfold dayLength at hlow hhigh
      unfold sampledFrom sampledTo hourLength
      omega
    have := candidate_of_offset hzone htarget hinside.left hinside.right
    rwa [← heq] at this
  have hexact : (decide (calendar due zone = target)) = true := by
    rw [(candidate_facts hzone htarget hmem).right.right.right]
    exact decide_eq_true hshown
  cases hfilter : (candidates target zone).filter fun instant =>
      calendar instant zone = target with
  | cons first rest =>
    rw [localHour_of_exact hfilter]
    have hfirst : first ∈ candidates target zone ∧ calendar first zone = target := by
      have : first ∈ (candidates target zone).filter fun instant =>
          calendar instant zone = target := by
        rw [hfilter]
        exact List.mem_cons_self
      rw [List.mem_filter, decide_eq_true_iff] at this
      exact this
    have hle := isLeast_of_sorted (candidates_sorted target zone) hfilter hmem hexact
    have hge : due ≤ first := by
      apply hdue.right
      rw [(candidate_facts hzone htarget hfirst.left).right.right.right] at hfirst
      exact le_of_eq hfirst.right.symm
    rw [Int.le_antisymm hle hge]
  | nil =>
    have := List.filter_eq_nil_iff.mp hfilter due hmem
    exact absurd hexact this

theorem localHour_of_skipped (hzone : zone.Regular) (htarget : Resolvable target)
    (hdue : IsLeast (reaches zone target) due) (hskipped : target < localTime zone due) :
    localHour target zone = .ok due := by
  have hbefore := lt_of_isLeast hdue
  have hsides := hzone.lt_of_skips hbefore hskipped
  have hjumps := jumpsAt_of_skips hbefore hskipped
  have hlow := hzone.neg_day_lt_offset (due - 1)
  have hhigh := hzone.offset_lt_day due
  have hinside : sampledFrom target ≤ due - 1 ∧ due ≤ sampledTo target := by
    unfold localTime at hbefore hskipped
    unfold dayLength at hlow hhigh
    unfold sampledFrom sampledTo hourLength
    omega
  -- The offsets before and after the gap give a candidate on either side of its end.
  have hearly : target - zone.offset due ∈ candidates target zone :=
    candidate_of_offset hzone htarget (by omega) hinside.right
  have hlate : target - zone.offset (due - 1) ∈ candidates target zone :=
    candidate_of_offset hzone htarget hinside.left (by omega)
  have habove : target < calendar (target - zone.offset (due - 1)) zone := by
    rw [(candidate_facts hzone htarget hlate).right.right.right]
    apply (hsides _).right
    unfold localTime at hbefore
    omega
  cases hfilter : (candidates target zone).filter fun instant =>
      calendar instant zone = target with
  | cons first rest =>
    have hmem : first ∈ (candidates target zone).filter fun instant =>
        calendar instant zone = target := by
      rw [hfilter]
      exact List.mem_cons_self
    rw [List.mem_filter, decide_eq_true_iff] at hmem
    rw [(candidate_facts hzone htarget hmem.left).right.right.right] at hmem
    exfalso
    by_cases hfirst : first < due
    · have := (hsides first).left hfirst
      omega
    · have := (hsides first).right (by omega)
      omega
  | nil =>
    cases hfound : (candidates target zone).find? fun instant =>
        target < calendar instant zone with
    | none =>
      have := List.find?_eq_none.mp hfound _ hlate
      exact absurd (decide_eq_true habove) this
    | some above =>
      rw [localHour_of_above hfilter hfound]
      have hmem := List.mem_of_find?_eq_some hfound
      have hshows := List.find?_some hfound
      rw [decide_eq_true_iff] at hshows
      have hfacts := candidate_facts hzone htarget hmem
      rw [hfacts.right.right.right] at hshows
      have hreached : due ≤ above := by
        by_contra hnot
        have := (hsides above).left (by omega)
        omega
      cases hcandidates : candidates target zone with
      | nil =>
          rw [hcandidates] at hmem
          exact absurd hmem List.not_mem_nil
      | cons smallest rest =>
          rw [List.head?_cons, Option.getD_some]
          have hsmallestMem : smallest ∈ candidates target zone := by
            rw [hcandidates]
            exact List.mem_cons_self
          have hsmallest := candidate_facts hzone htarget hsmallestMem
          have hle : smallest ≤ target - zone.offset due := by
            have hsorted := candidates_sorted target zone
            rw [hcandidates] at hsorted hearly
            rcases List.mem_cons.mp hearly with heq | hrest
            · exact le_of_eq heq.symm
            · exact List.rel_of_pairwise_cons hsorted hrest
          have hdueDvd := hzone.jump_seconds due hjumps
          have hlowDvd : 1000 ∣ smallest - minute := Int.dvd_sub hsmallest.left (by decide)
          have hlowBefore : smallest - minute < due := by
            unfold localTime at hskipped
            unfold minute
            omega
          apply searchHour_eq hdueDvd _ hlowDvd hfacts.left hlowBefore hreached
          · intro middle hmiddle hfrom
            have hearliest : earliestTime ≤ localTime zone middle := by
              apply htarget.earliest_le hzone
              have := hsmallest.right.left
              unfold minute at hfrom
              unfold dayLength at this ⊢
              omega
            rw [calendar_of_dvd hzone hmiddle hearliest]
            constructor
            · intro htime
              by_contra hnot
              have := (hsides middle).left (by omega)
              omega
            · intro htime
              exact Int.le_of_lt ((hsides middle).right htime)
          · unfold minute
            omega

/-- A local hour is resolved to the first instant that shows it or a later time. -/
theorem localHour_eq (hzone : zone.Regular) (htarget : Resolvable target)
    (hdue : IsLeast (reaches zone target) due) : localHour target zone = .ok due := by
  have hreached : target ≤ localTime zone due := hdue.left
  by_cases hshown : localTime zone due = target
  · exact localHour_of_shown hzone htarget hdue hshown
  · exact localHour_of_skipped hzone htarget hdue (by omega)

end Resolved

/-!
## Notices of a schedule
-/

def hourOn (hour day : Int) : Int :=
  day * dayLength + hour * hourLength

/-- The instants at which a notice of the schedule is due, one for each local day. -/
def IsDue (zone : TimeZone) (hour instant : Int) : Prop :=
  exists day, IsDueFor zone (hourOn hour day) instant

/-- The instants from ten days after the start of the year 100 to ten days before the end of
the year 9999. -/
structure Supported (now : Int) : Prop where
  late : earliestTime + 10 * dayLength ≤ now
  early : now ≤ latestTime - 10 * dayLength

/-- An instant that ends a gap over the hour of a schedule and over the midnight after it. -/
def PassesMidnight (zone : TimeZone) (hour instant : Int) : Prop :=
  exists day, localTime zone (instant - 1) < hourOn hour day ∧
    (day + 1) * dayLength ≤ localTime zone instant

section Daily

variable {zone : TimeZone} {hour now : Int}

/-!
## One due instant for each day
-/

theorem TimeZone.Regular.lt_of_day_lt (hzone : zone.Regular) {day other first second : Int}
    (h : day < other) (hfirst : IsLeast (reaches zone (hourOn hour day)) first)
    (hsecond : IsLeast (reaches zone (hourOn hour other)) second) : first < second := by
  have hshown := hzone.localTime_le_of_isLeast hfirst
  have hreached : hourOn hour other ≤ localTime zone second := hsecond.left
  have hlater : hourOn hour day + dayLength ≤ hourOn hour other := by
    unfold hourOn dayLength
    omega
  have hmem : second ∈ reaches zone (hourOn hour day) := by
    show hourOn hour day ≤ localTime zone second
    unfold dayLength at hlater
    omega
  rcases Int.lt_or_eq_of_le (hfirst.right hmem) with hlt | heq
  · exact hlt
  · rw [heq] at hshown
    unfold dayLength at hlater
    unfold hourLength at hshown
    omega

theorem TimeZone.Regular.day_lt_iff (hzone : zone.Regular) {day other first second : Int}
    (hfirst : IsLeast (reaches zone (hourOn hour day)) first)
    (hsecond : IsLeast (reaches zone (hourOn hour other)) second) :
    first < second ↔ day < other := by
  constructor
  · intro h
    by_contra hnot
    rcases Int.lt_or_eq_of_le (Int.not_lt.mp hnot) with hlt | heq
    · have := hzone.lt_of_day_lt hlt hsecond hfirst
      omega
    · cases heq
      rw [hfirst.unique hsecond] at h
      exact absurd h (Int.lt_irrefl _)
  · intro h
    exact hzone.lt_of_day_lt h hfirst hsecond

theorem due_le_of_day_lt {day due : Int} (hhour : hour ≤ 23)
    (hday : day < localTime zone now / dayLength)
    (hdue : IsLeast (reaches zone (hourOn hour day)) due) : due ≤ now := by
  apply hdue.right
  show hourOn hour day ≤ localTime zone now
  unfold dayLength at hday
  unfold hourOn dayLength hourLength
  omega

theorem TimeZone.Regular.lt_due_of_lt_day (hzone : zone.Regular) {day due : Int}
    (hhour : 0 ≤ hour) (hday : localTime zone now / dayLength + 1 < day)
    (hdue : IsLeast (reaches zone (hourOn hour day)) due) : now < due := by
  by_contra hnot
  have hback := hzone.localTime_le (Int.not_lt.mp hnot)
  have hreached : hourOn hour day ≤ localTime zone due := hdue.left
  unfold dayLength at hday
  unfold hourOn dayLength hourLength at hreached
  unfold hourLength at hback
  omega

def IsNextDue (zone : TimeZone) (hour now due : Int) : Prop :=
  IsLeast {time | now < time ∧ IsDue zone hour time} due

theorem TimeZone.Regular.isNextDue_of_day (hzone : zone.Regular) {day due : Int}
    (hdue : IsLeast (reaches zone (hourOn hour day)) due) (hafter : now < due)
    (hbefore : forall earlier other, earlier < day ->
      IsLeast (reaches zone (hourOn hour earlier)) other -> other ≤ now) :
    IsNextDue zone hour now due := by
  constructor
  · exact ⟨hafter, day, hzone.isDueFor_iff.mpr hdue⟩
  · rintro time ⟨htime, other, hother⟩
    rw [hzone.isDueFor_iff] at hother
    by_contra hnot
    have hearlier := (hzone.day_lt_iff hother hdue).mp (by omega)
    have := hbefore other time hearlier hother
    omega

/-!
## The days that are tried
-/

theorem Supported.earliest_le (hnow : Supported now) (hzone : zone.Regular) :
    earliestTime + 9 * dayLength ≤ localTime zone now := by
  have hoffset := hzone.neg_day_lt_offset now
  have := hnow.late
  unfold localTime
  omega

theorem wall_day (hzone : zone.Regular) (hnow : Supported now) :
    calendar now zone / dayLength = localTime zone now / dayLength := by
  have hlate := hnow.earliest_le hzone
  rw [calendar_eq (by unfold dayLength at hlate; omega)]
  unfold dayLength
  omega

theorem hourOfDay_eq (hzone : zone.Regular) (hnow : Supported now) (days hour : Int) :
    hourOfDay (utcDate (calendar now zone)) days hour =
      hourOn hour (localTime zone now / dayLength + days) := by
  have hlate := hnow.earliest_le hzone
  have hwall : earliestTime ≤ calendar now zone := by
    rw [calendar_eq (by unfold dayLength at hlate; omega)]
    rw [earliestTime_eq] at hlate ⊢
    unfold dayLength at hlate ⊢
    omega
  rw [hourOfDay, dateUTC_utcDate hwall, wall_day hzone hnow, hourOn]
  omega

theorem resolvable_hourOn (hzone : zone.Regular) (hnow : Supported now) {days : Int}
    (hhour : 0 ≤ hour) (hdays : 0 ≤ days) :
    Resolvable (hourOn hour (localTime zone now / dayLength + days)) := by
  constructor
  · unfold hourOn dayLength hourLength
    omega
  · have hlate := hnow.earliest_le hzone
    rw [earliestTime_eq] at hlate ⊢
    unfold hourOn hourLength
    unfold dayLength at hlate ⊢
    omega

def DueBefore (zone : TimeZone) (hour now day : Int) : Prop :=
  forall earlier due, earlier < day -> IsLeast (reaches zone (hourOn hour earlier)) due ->
    due ≤ now

/-- A day that is tried gives the next due instant, or its own instant has passed. -/
theorem firstLocalHour_step (hzone : zone.Regular) (hnow : Supported now) (hhour : 0 ≤ hour)
    (days : Int) (hdays : 0 ≤ days) (rest : List Int)
    (hbefore : DueBefore zone hour now (localTime zone now / dayLength + days)) :
    (exists due,
        firstLocalHour (utcDate (calendar now zone)) hour zone now (days :: rest) = .ok due ∧
          IsLeast (reaches zone (hourOn hour (localTime zone now / dayLength + days))) due ∧
          IsNextDue zone hour now due) ∨
      firstLocalHour (utcDate (calendar now zone)) hour zone now (days :: rest) =
          firstLocalHour (utcDate (calendar now zone)) hour zone now rest ∧
        DueBefore zone hour now (localTime zone now / dayLength + (days + 1)) := by
  obtain ⟨due, hdue⟩ :=
    hzone.exists_isLeast (hourOn hour (localTime zone now / dayLength + days))
  have hresolved := localHour_eq hzone (resolvable_hourOn hzone hnow hhour hdays) hdue
  rw [firstLocalHour, hourOfDay_eq hzone hnow, hresolved]
  by_cases hafter : now < due
  · apply Or.inl
    refine ⟨due, ?_, hdue, hzone.isNextDue_of_day hdue hafter hbefore⟩
    show (if now < due then _ else _) = _
    rw [if_pos hafter]
    rfl
  · apply Or.inr
    constructor
    · show (if now < due then _ else _) = _
      rw [if_neg hafter]
    · intro earlier other hearlier hother
      by_cases hlast : earlier < localTime zone now / dayLength + days
      · exact hbefore earlier other hlast hother
      · have hsame : earlier = localTime zone now / dayLength + days := by omega
        rw [hsame] at hother
        rw [hother.unique hdue]
        omega

/-- The schedule's next due instant is the first after now. -/
theorem nextNoticeDue_daily {schedule : NoticeSchedule} (hmode : schedule.mode = .daily)
    (hzone : schedule.timeZone.Regular) (hnow : Supported now) :
    exists due day, nextNoticeDue schedule now = .ok (some due) ∧
      day ≤ localTime schedule.timeZone now / dayLength + 2 ∧
      IsLeast (reaches schedule.timeZone (hourOn schedule.hour day)) due ∧
      IsNextDue schedule.timeZone schedule.hour now due := by
  have hhour := schedule.hour_nonneg
  have hstart : DueBefore schedule.timeZone schedule.hour now
      (localTime schedule.timeZone now / dayLength + 0) := by
    intro earlier due hearlier hdue
    exact due_le_of_day_lt schedule.hour_le (by omega) hdue
  have hresult : forall {due : Int},
      firstLocalHour (utcDate (calendar now schedule.timeZone)) schedule.hour schedule.timeZone
        now [0, 1, 2, 3] = .ok due -> nextNoticeDue schedule now = .ok (some due) := by
    intro due hdue
    unfold nextNoticeDue
    rw [hmode]
    show (firstLocalHour _ _ _ _ _ >>= _) = _
    rw [hdue]
    rfl
  rcases firstLocalHour_step hzone hnow hhour 0 (Int.le_refl 0) [1, 2, 3] hstart with
    ⟨due, hdue, hleast, hnext⟩ | ⟨hskip, hnext⟩
  · exact ⟨due, _, hresult hdue, by omega, hleast, hnext⟩
  rcases firstLocalHour_step hzone hnow hhour 1 (by decide) [2, 3] hnext with
    ⟨due, hdue, hleast, hnext⟩ | ⟨hskipNext, hlast⟩
  · exact ⟨due, _, hresult (hskip.trans hdue), by omega, hleast, hnext⟩
  rcases firstLocalHour_step hzone hnow hhour 2 (by decide) [3] hlast with
    ⟨due, hdue, hleast, hnext⟩ | ⟨_, hpassed⟩
  · exact ⟨due, _, hresult (hskip.trans (hskipNext.trans hdue)), by omega, hleast, hnext⟩
  · -- Two days after the current one the hour has not come.
    obtain ⟨due, hdue⟩ := hzone.exists_isLeast
      (hourOn schedule.hour (localTime schedule.timeZone now / dayLength + 2))
    have hday : localTime schedule.timeZone now / dayLength + 1 <
        localTime schedule.timeZone now / dayLength + 2 := by
      omega
    have hlate := hzone.lt_due_of_lt_day hhour hday hdue
    have := hpassed _ due (by omega) hdue
    omega

end Daily

end Notices
end Pertexo
