import Pertexo.RateLimits.LocalRateLimiter

/-!
# What a limiter reads of its counters

## Readings

A counter counts while its window lasts. Looking a counter up, or making room
without evicting one, forgets spent counters only, so it leaves every reading from
then on as it was.
-/

namespace Pertexo
namespace RateLimits

open Library Values

namespace LocalRateLimiter

def reading (limiter : LocalRateLimiter) (now : Int) (key : ScriptString) : Option Counter :=
  (limiter.counters.get? key).filter fun counter => decide (now < counter.expiresAt)

/-- The counter under a key is still there, or it was spent and is not. -/
def ForgetsAt (now : Int) (before after : LocalRateLimiter) (key : ScriptString) : Prop :=
  after.counters.get? key = before.counters.get? key ∨
    after.counters.get? key = none ∧
      forall counter, before.counters.get? key = some counter -> counter.expiresAt ≤ now

structure Forgets (now : Int) (before after : LocalRateLimiter) : Prop where
  evictions : after.evictions = before.evictions
  forgets : forall key, ForgetsAt now before after key

theorem Forgets.refl (now : Int) (limiter : LocalRateLimiter) : Forgets now limiter limiter :=
  ⟨rfl, fun _ => Or.inl rfl⟩

theorem ForgetsAt.trans {now : Int} {first second third : LocalRateLimiter} {key : ScriptString}
    (h : ForgetsAt now first second key) (h' : ForgetsAt now second third key) :
    ForgetsAt now first third key := by
  cases h with
  | inl hsame =>
      rw [ForgetsAt, ← hsame]
      exact h'
  | inr hgone =>
      cases h' with
      | inl hsame => exact Or.inr ⟨hsame.trans hgone.left, hgone.right⟩
      | inr hgone' => exact Or.inr ⟨hgone'.left, hgone.right⟩

theorem Forgets.trans {now : Int} {first second third : LocalRateLimiter}
    (h : Forgets now first second) (h' : Forgets now second third) :
    Forgets now first third :=
  ⟨h'.evictions.trans h.evictions, fun key => (h.forgets key).trans (h'.forgets key)⟩

theorem ForgetsAt.reading_eq {now later : Int} {before after : LocalRateLimiter}
    {key : ScriptString} (h : ForgetsAt now before after key) (hlater : now ≤ later) :
    after.reading later key = before.reading later key := by
  cases h with
  | inl hsame => rw [reading, reading, hsame]
  | inr hgone =>
      rw [reading, reading, hgone.left]
      cases hbefore : before.counters.get? key with
      | none => rfl
      | some counter =>
          have hspent := hgone.right counter hbefore
          have hnot : ¬ later < counter.expiresAt := by omega
          symm
          apply Option.filter_some_neg
          simpa using hnot

theorem forgets_filter {limiter : LocalRateLimiter} {now : Int} {keeps : Counter -> Bool}
    (h : forall counter, counter ∈ limiter.counters -> keeps counter = false ->
      counter.expiresAt ≤ now) :
    Forgets now limiter { limiter with counters := limiter.counters.filter keeps } := by
  constructor
  · rfl
  · intro key
    rw [ForgetsAt]
    dsimp only
    rw [Keyed.get?_filter]
    cases hget : limiter.counters.get? key with
    | none => exact Or.inl rfl
    | some counter =>
        cases hkeeps : keeps counter with
        | true =>
            exact Or.inl (Option.filter_some_pos hkeeps)
        | false =>
            right
            constructor
            · apply Option.filter_some_neg
              simp [hkeeps]
            · intro other hother
              cases hother
              exact h counter (Keyed.mem_of_get? hget) hkeeps

theorem live_eq (limiter : LocalRateLimiter) (key : ScriptString) (now : Int) :
    (limiter.live key now).1 = limiter.reading now key ∧
      Forgets now limiter (limiter.live key now).2 := by
  rw [live, reading]
  cases hget : limiter.counters.get? key with
  | none => exact ⟨rfl, Forgets.refl now limiter⟩
  | some counter =>
      by_cases halive : now < counter.expiresAt
      · simp only [gt_iff_lt, if_pos halive]
        constructor
        · symm
          apply Option.filter_some_pos
          simpa using halive
        · exact Forgets.refl now limiter
      · simp only [gt_iff_lt, if_neg halive]
        constructor
        · symm
          apply Option.filter_some_neg
          simpa using halive
        · apply forgets_filter
          intro other hother hkeeps
          have hkey : other.key = key := by simpa using hkeeps
          have hsame : other = counter := by
            apply Keyed.eq_of_mem_of_key_eq hother (Keyed.mem_of_get? hget)
            rw [hkey, Keyed.key_of_get? hget]
          rw [hsame]
          omega

theorem evictions_le_makeRoom (limiter : LocalRateLimiter) (now : Int) :
    limiter.evictions ≤ (limiter.makeRoom now).evictions := by
  rw [makeRoom]
  split
  · exact Nat.le_refl _
  · dsimp only
    split
    · exact Nat.le_refl _
    · split
      · exact Nat.le_refl _
      · exact Nat.le_succ _

theorem forgets_makeRoom {limiter : LocalRateLimiter} {now : Int}
    (h : (limiter.makeRoom now).evictions = limiter.evictions) :
    Forgets now limiter (limiter.makeRoom now) := by
  have hkept : Forgets now limiter
      { limiter with
        counters := limiter.counters.filter fun counter =>
          ! decide (counter.expiresAt ≤ now) } := by
    apply forgets_filter
    intro counter _ hkeeps
    simpa using hkeeps
  rw [makeRoom] at h ⊢
  split
  · exact Forgets.refl now limiter
  · rename_i hfull
    rw [if_neg hfull] at h
    dsimp only at h ⊢
    split
    · exact hkept
    · rename_i hstill
      rw [if_neg hstill] at h
      split
      · exact hkept
      · rename_i oldest holdest
        rw [holdest] at h
        dsimp only at h
        omega

/-!
## The check

What the check finds are the exhausted dimensions, and the one it keeps is the
first of those that wait the longest.
-/

def exhaustedAmong (limiter : LocalRateLimiter) (now : Int) (entries : List KeyedDimension) :
    List Limited :=
  entries.filterMap fun entry =>
    (limiter.reading now entry.key).bind fun counter =>
      if counter.count < entry.dimension.limit then none
      else some { retryMillis := counter.expiresAt - now, dimension := entry.dimension }

/-- The dimensions of a decision that have nothing left, in the decision's order. -/
def exhausted (limiter : LocalRateLimiter) (now : Int) (decision : RateLimitDecision) :
    List Limited :=
  limiter.exhaustedAmong now (keyed decision.endpointClass decision.dimensions)

theorem exhaustedAmong_of_forgets {now : Int} {before after : LocalRateLimiter}
    (h : Forgets now before after) (entries : List KeyedDimension) :
    after.exhaustedAmong now entries = before.exhaustedAmong now entries := by
  rw [exhaustedAmong, exhaustedAmong]
  congr 1
  funext entry
  rw [(h.forgets entry.key).reading_eq (Int.le_refl now)]

theorem findLimited_eq (now : Int) (entries : List KeyedDimension)
    (limiter : LocalRateLimiter) (limited : Option Limited) :
    (findLimited now limiter limited entries).1 =
        (limiter.exhaustedAmong now entries).foldl
          (List.argAux fun left right => right.retryMillis < left.retryMillis) limited ∧
      Forgets now limiter (findLimited now limiter limited entries).2 := by
  induction entries generalizing limiter limited with
  | nil => exact ⟨rfl, Forgets.refl now limiter⟩
  | cons entry rest ih =>
      have hlive := live_eq limiter entry.key now
      rw [findLimited]
      generalize limiter.live entry.key now = looked at hlive
      rcases looked with ⟨found, left⟩
      dsimp only at hlive
      have hrest := exhaustedAmong_of_forgets hlive.right rest
      have hcons : limiter.exhaustedAmong now (entry :: rest) =
          (found.bind fun counter =>
            if counter.count < entry.dimension.limit then none
            else some
              { retryMillis := counter.expiresAt - now
                dimension := entry.dimension : Limited }).toList ++
            left.exhaustedAmong now rest := by
        rw [hrest, hlive.left, exhaustedAmong, exhaustedAmong, List.filterMap_cons]
        cases hbind : (limiter.reading now entry.key).bind _ with
        | none => rfl
        | some waiting => rfl
      rw [hcons]
      cases found with
      | none =>
          have hih := ih left limited
          exact ⟨hih.left, hlive.right.trans hih.right⟩
      | some counter =>
          by_cases hcount : counter.count < entry.dimension.limit
          · simp only [if_pos hcount, Option.bind_some, Option.toList_none, List.nil_append]
            have hih := ih left limited
            exact ⟨hih.left, hlive.right.trans hih.right⟩
          · simp only [if_neg hcount, Option.bind_some, Option.toList_some, List.singleton_append,
              List.foldl_cons]
            cases limited with
            | none =>
                have hih := ih left
                  (some { retryMillis := counter.expiresAt - now, dimension := entry.dimension })
                exact ⟨hih.left, hlive.right.trans hih.right⟩
            | some current =>
                by_cases hlonger : current.retryMillis < counter.expiresAt - now
                · simp only [gt_iff_lt, if_pos hlonger, List.argAux]
                  have hih := ih left
                    (some { retryMillis := counter.expiresAt - now, dimension := entry.dimension })
                  exact ⟨hih.left, hlive.right.trans hih.right⟩
                · simp only [gt_iff_lt, if_neg hlonger, List.argAux]
                  have hih := ih left (some current)
                  exact ⟨hih.left, hlive.right.trans hih.right⟩

/-!
## Counting a request
-/

def counted (now windowMillis : Int) (key : ScriptString) : Option Counter -> Counter
  | none => { key := key, count := 1, expiresAt := addNumbers now windowMillis }
  | some counter => { counter with count := counter.count + 1 }

theorem key_of_reading {limiter : LocalRateLimiter} {now : Int} {key : ScriptString}
    {counter : Counter} (h : limiter.reading now key = some counter) : counter.key = key := by
  rw [reading, Option.filter_eq_some_iff] at h
  exact Keyed.key_of_get? h.left

theorem key_counted {limiter : LocalRateLimiter} {now windowMillis : Int} {key : ScriptString} :
    (counted now windowMillis key (limiter.reading now key)).key = key := by
  cases hreading : limiter.reading now key with
  | none => rfl
  | some counter =>
      show counter.key = key
      exact key_of_reading hreading

structure CountSpec (now windowMillis : Int) (limiter after : LocalRateLimiter)
    (key : ScriptString) : Prop where
  evictions : limiter.evictions ≤ after.evictions
  self : after.counters.get? key = some (counted now windowMillis key (limiter.reading now key))
  other : after.evictions = limiter.evictions ->
    forall other, other ≠ key -> ForgetsAt now limiter after other

theorem count_spec (now windowMillis : Int) (limiter : LocalRateLimiter) (key : ScriptString) :
    (count now windowMillis limiter key).1 =
        counted now windowMillis key (limiter.reading now key) ∧
      CountSpec now windowMillis limiter (count now windowMillis limiter key).2 key := by
  have hlive := live_eq limiter key now
  have hkey := @key_counted limiter now windowMillis key
  rw [count]
  generalize limiter.live key now = looked at hlive
  rcases looked with ⟨found, left⟩
  dsimp only at hlive
  rw [← hlive.left] at hkey ⊢
  have hset (base : LocalRateLimiter) (counter : Counter) (hcounter : counter.key = key)
      (other : ScriptString) (hne : other ≠ key) :
      (base.set counter).counters.get? other = base.counters.get? other := by
    apply Keyed.get?_set_of_ne
    rw [hcounter]
    exact hne
  have hself (base : LocalRateLimiter) (counter : Counter) (hcounter : counter.key = key) :
      (base.set counter).counters.get? key = some counter := by
    rw [← hcounter]
    exact Keyed.get?_set_self _ _
  cases found with
  | none =>
      refine ⟨rfl, ?_, ?_, ?_⟩
      · have hroom := evictions_le_makeRoom left now
        rw [← hlive.right.evictions]
        exact hroom
      · rw [← hlive.left]
        exact hself _ _ rfl
      · intro hevictions other hne
        have hroom : Forgets now left (left.makeRoom now) := by
          apply forgets_makeRoom
          rw [hlive.right.evictions]
          exact hevictions
        have hforgets := (hlive.right.trans hroom).forgets other
        rw [ForgetsAt, hset _ _ rfl other hne]
        exact hforgets
  | some counter =>
      refine ⟨rfl, ?_, ?_, ?_⟩
      · rw [← hlive.right.evictions]
        exact Nat.le_refl _
      · rw [← hlive.left]
        exact hself _ _ hkey
      · intro _ other hne
        have hsame := hset left (counted now windowMillis key (some counter)) hkey other hne
        dsimp only [counted] at hsame
        rw [ForgetsAt]
        dsimp only
        rw [hsame]
        exact hlive.right.forgets other

end LocalRateLimiter

end RateLimits
end Pertexo
