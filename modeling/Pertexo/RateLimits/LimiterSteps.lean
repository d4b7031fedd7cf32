import Mathlib.Data.Int.ConditionallyCompleteOrder
import Mathlib.Order.ConditionallyCompleteLattice.Basic
import Pertexo.RateLimits.Agreement

/-!
# One decision on both sides

## Replies read back
-/

namespace Pertexo
namespace RateLimits

open Library Values LocalRateLimiter

theorem readScriptResult_allowed (decision : RateLimitDecision) {quota : ScriptQuota}
    (h : 0 ≤ quota.remaining) :
    readScriptResult decision [1, 0, 0, quota.remaining, quota.tightest, quota.reset_ms] =
      .ok (.allowed (some (quotaOf quota))) := by
  have hremaining : max 0 quota.remaining = quota.remaining := by omega
  simp [readScriptResult, parseScriptResult, bind, Except.bind, pure, Except.pure, hremaining,
    quotaOf]

theorem readScriptResult_refused {decision : RateLimitDecision} {retry_ms : Int} {i : Nat}
    {dimension : RateLimitDimension} (hretry : 0 ≤ retry_ms)
    (hdimension : decision.dimensions[i]? = some dimension) :
    readScriptResult decision [0, retry_ms, 1 + i] =
      .ok (.refused (min 60 (max 1 (ceilSeconds retry_ms))) dimension.kind) := by
  have hindex : (1 + (i : Int) - 1) = i := by omega
  have hnat : ¬ (i : Int) < 0 := by omega
  have hnot : ¬ retry_ms < 0 := by omega
  simp [readScriptResult, readScriptResult.readRefusal, parseScriptResult, bind, Except.bind,
    hindex, hnat, hdimension, hnot]

/-!
## Quotas of admitted requests

Below its limit a counter takes one more, so the quota left is not negative.
-/

section Quotas

variable {now window_ms : Int}

theorem countAll_ne_none (head : KeyedDimension) (rest : List KeyedDimension)
    (limiter : LocalRateLimiter) (quota : Option RateLimitQuota) :
    (countAll now window_ms limiter quota (head :: rest)).1 ≠ none := by
  induction rest generalizing head limiter quota with
  | nil =>
      rw [countAll_cons]
      intro h
      cases h
  | cons next rest ih =>
      rw [countAll_cons]
      exact ih next _ _

theorem countAll_remaining (entries : List KeyedDimension) (limiter : LocalRateLimiter)
    (quota : Option RateLimitQuota) (hnodup : (entries.map KeyedDimension.key).Nodup)
    (hevictions : (countAll now window_ms limiter quota entries).2.evictions = limiter.evictions)
    (hlimits : forall head, head ∈ entries -> 0 < head.dimension.limit)
    (hbelow : forall head, head ∈ entries -> forall counter,
      limiter.reading now head.key = some counter -> counter.count < head.dimension.limit)
    (hquota : forall current, quota = some current -> 0 ≤ current.remaining) :
    forall current, (countAll now window_ms limiter quota entries).1 = some current ->
      0 ≤ current.remaining := by
  induction entries generalizing limiter quota with
  | nil => exact hquota
  | cons head rest ih =>
      rw [countAll_cons] at hevictions ⊢
      have hcount := count_spec now window_ms limiter head.key
      generalize count now window_ms limiter head.key = left at hcount hevictions ⊢
      rcases hcount with ⟨hcounter, hcount⟩
      rcases List.nodup_cons.mp hnodup with ⟨hfresh, hnodup'⟩
      have hsame : left.2.evictions = limiter.evictions := by
        apply Nat.le_antisymm
        · rw [← hevictions]
          exact countAll_evictions _ _ _
        · exact hcount.evictions
      apply ih left.2 _ hnodup' (hevictions.trans hsame.symm)
      · exact fun other hother => hlimits other (List.mem_cons_of_mem _ hother)
      · intro other hother counter hreading
        have hne : other.key ≠ head.key :=
          fun heq => hfresh (List.mem_map.mpr ⟨other, hother, heq⟩)
        rw [(hcount.other hsame _ hne).reading_eq (Int.le_refl now)] at hreading
        exact hbelow other (List.mem_cons_of_mem _ hother) counter hreading
      · have hfirst : 0 ≤ head.dimension.limit - left.1.count := by
          rw [hcounter]
          cases hreading : limiter.reading now head.key with
          | none =>
              have hlimit := hlimits head List.mem_cons_self
              show 0 ≤ head.dimension.limit - 1
              omega
          | some counter =>
              have hless := hbelow head List.mem_cons_self counter hreading
              show 0 ≤ head.dimension.limit - (counter.count + 1)
              omega
        intro current hcurrent
        cases hcurrent
        cases quota with
        | none => exact hfirst
        | some before =>
            dsimp only [tighter]
            split
            · exact hfirst
            · exact hquota before rfl

end Quotas

/-!
## The step
-/

section Steps

variable {Store : Type} {redis : RedisCommands Store} {expired : Int -> Int -> Bool}
    {entry : Store -> String -> Option RedisEntry} {sha256 : Bytes -> String}
    {named : Set (RateLimitEndpointClass × RateLimitDimension)}
    {limiter : LocalRateLimiter} {store : Store} {now : Int} {decision : RateLimitDecision}

structure Refuses (redis : RedisCommands Store) (sha256 : Bytes -> String)
    (limiter : LocalRateLimiter) (store : Store) (now : Int) (decision : RateLimitDecision)
    (first last : Limited) : Prop where
  longest : (limiter.exhausted now decision).argmax Limited.retryMillis = some first
  final : (limiter.exhausted now decision).getLast? = some last
  localResult : (limiter.consume now decision).1 =
    .refused (ceilSeconds first.retryMillis) first.dimension.kind
  forgets : Forgets now limiter (limiter.consume now decision).2
  result : exists retryAfterSeconds, consume redis sha256 store now decision =
    (.ok (.refused retryAfterSeconds last.dimension.kind), store)

structure Allows (redis : RedisCommands Store)
    (entry : Store -> String -> Option RedisEntry) (sha256 : Bytes -> String)
    (named : Set (RateLimitEndpointClass × RateLimitDimension)) (limiter : LocalRateLimiter)
    (store : Store) (now : Int) (decision : RateLimitDecision) (quota : RateLimitQuota) :
    Prop where
  exhausted : limiter.exhausted now decision = []
  localResult : (limiter.consume now decision).1 = .allowed (some quota)
  result : (consume redis sha256 store now decision).1 = .ok (.allowed (some quota))
  mirrors : MirrorsAll entry sha256 named now (limiter.consume now decision).2
    (consume redis sha256 store now decision).2
  counts : CountsSpec entry sha256 decision.endpointClass now decision.windowMillis
    decision.dimensions limiter (limiter.consume now decision).2 store
    (consume redis sha256 store now decision).2

theorem CountsSpec.of_forgets {endpointClass : RateLimitEndpointClass} {window_ms : Int}
    {dimensions : List RateLimitDimension} {before middle after : LocalRateLimiter}
    {later : Store} (hforgets : Forgets now before middle)
    (h : CountsSpec entry sha256 endpointClass now window_ms dimensions middle after store
      later) :
    CountsSpec entry sha256 endpointClass now window_ms dimensions before after store later := by
  refine ⟨?_, ?_, h.otherKey⟩
  · intro dimension hdimension
    rw [← (hforgets.forgets _).reading_eq (Int.le_refl now)]
    exact h.named dimension hdimension
  · intro name hname
    exact (hforgets.forgets name).trans (h.otherName name hname)

theorem below_of_exhausted_nil (h : limiter.exhausted now decision = []) :
    forall dimension, dimension ∈ decision.dimensions -> forall counter,
      limiter.reading now (counterName decision.endpointClass dimension) = some counter ->
        counter.count < dimension.limit := by
  intro dimension hdimension counter hreading
  rw [exhausted, exhaustedAmong, List.filterMap_eq_nil_iff] at h
  have hnone := h _ (List.mem_map.mpr ⟨dimension, hdimension, rfl⟩)
  dsimp only at hnone
  rw [hreading, Option.bind_some] at hnone
  split at hnone
  · assumption
  · cases hnone

theorem counted_le_limit {window_ms : Int} (h : limiter.exhausted now decision = [])
    {dimension : RateLimitDimension} (hdimension : dimension ∈ decision.dimensions)
    (hlimit : 0 < dimension.limit) :
    (counted now window_ms (counterName decision.endpointClass dimension)
      (limiter.reading now (counterName decision.endpointClass dimension))).count ≤
        dimension.limit := by
  cases hreading : limiter.reading now (counterName decision.endpointClass dimension) with
  | none =>
      show 1 ≤ dimension.limit
      omega
  | some counter =>
      have hbelow := below_of_exhausted_nil h dimension hdimension counter hreading
      show counter.count + 1 ≤ dimension.limit
      omega

theorem consume_evictions (limiter : LocalRateLimiter) (now : Int)
    (decision : RateLimitDecision) :
    limiter.evictions ≤ (limiter.consume now decision).2.evictions := by
  have hfind := findLimited_eq now (keyed decision.endpointClass decision.dimensions) limiter none
  rw [LocalRateLimiter.consume]
  generalize findLimited now limiter none (keyed decision.endpointClass decision.dimensions) = found
    at hfind
  rcases found with ⟨limited, left⟩
  rw [← hfind.right.evictions]
  cases limited with
  | none => exact countAll_evictions _ _ _
  | some limited => exact Nat.le_refl _

theorem consume_spec (hredis : KeepsCounters redis expired entry)
    (hkeys : KeysAgree sha256 named) (hadmitted : assertDecision decision = .ok ())
    (hexact : addNumbers now decision.windowMillis = now + decision.windowMillis)
    (hnamed : forall dimension, dimension ∈ decision.dimensions ->
      (decision.endpointClass, dimension) ∈ named)
    (hmirrors : MirrorsAll entry sha256 named now limiter store)
    (htimes : forall dimension, dimension ∈ decision.dimensions ->
      TimesOut expired entry store now (counterKey sha256 decision.endpointClass dimension))
    (hevictions : (limiter.consume now decision).2.evictions = limiter.evictions) :
    (exists first last, Refuses redis sha256 limiter store now decision first last) ∨
      exists quota, Allows redis entry sha256 named limiter store now decision quota := by
  have hdecision := isAdmitted_of_assertDecision hadmitted
  have hwindow : 0 < decision.windowMillis := by
    have h := hdecision.window
    rw [RateLimitDecision.windowMillis]
    omega
  have hfind := findLimited_eq now (keyed decision.endpointClass decision.dimensions) limiter none
  have hshows : forall dimension, dimension ∈ decision.dimensions ->
      Shows expired entry store limiter now
        (counterKey sha256 decision.endpointClass dimension)
        (counterName decision.endpointClass dimension) := by
    intro dimension hdimension
    have hmirror := hmirrors _ (hnamed dimension hdimension)
    dsimp only at hmirror
    exact shows_of_mirrors hmirror (htimes dimension hdimension)
  have hcheck := @checkBudgets_spec Store redis expired entry sha256 decision.endpointClass now
    decision.windowMillis store limiter hredis decision.dimensions 1 0 0 hdecision.limits hshows
  dsimp only at hcheck
  rcases hcheck with ⟨hretry, hnone, hlast⟩
  have hlocal := LocalRateLimiter.consume.eq_def limiter now decision
  have hremote : consume redis sha256 store now decision =
      let value := consumeScript redis decision.windowMillis now store
        (budgets sha256 decision.endpointClass decision.dimensions)
      (readScriptResult decision value.1, value.2) := by
    rw [consume, hadmitted]
  generalize findLimited now limiter none (keyed decision.endpointClass decision.dimensions) = found
    at hfind hlocal
  rcases found with ⟨limited, left⟩
  rcases hfind with ⟨hlongest, hforgets⟩
  dsimp only at hlongest hforgets hlocal hremote
  cases limited with
  | some first =>
      left
      have hargmax : (limiter.exhausted now decision).argmax Limited.retryMillis = some first :=
        hlongest.symm
      have hne : limiter.exhausted now decision ≠ [] := by
        intro hnil
        rw [hnil, List.argmax_nil] at hargmax
        cases hargmax
      have hfinal := List.getLast?_eq_some_getLast hne
      generalize (limiter.exhausted now decision).getLast hne = last at hfinal
      rcases hlast last hfinal with ⟨i, hi, hindex⟩
      refine ⟨first, last, hargmax, hfinal, ?_, ?_, ?_⟩
      · rw [hlocal]
      · rw [hlocal]
        exact hforgets
      · rw [consumeScript_rejects redis decision.windowMillis now hindex] at hremote
        rw [hremote]
        dsimp only
        rw [readScriptResult_refused hretry hi]
        exact ⟨_, rfl⟩
  | none =>
      right
      dsimp only at hlocal
      have hempty : limiter.exhausted now decision = [] :=
        List.argmax_eq_none.mp hlongest.symm
      have hindex := hnone hempty
      have hbelow := below_of_exhausted_nil hempty
      have hsame : left.evictions = limiter.evictions := hforgets.evictions
      rw [hlocal] at hevictions
      have hmirrors' : MirrorsAll entry sha256 named now left store :=
        fun counter hcounter => (hmirrors counter hcounter).forget (hforgets.forgets _)
      have hcounts := @countAll_spec Store redis expired entry sha256 decision.endpointClass now
        decision.windowMillis named hredis hwindow hexact hkeys decision.dimensions left store none
        hdecision.names hnamed hmirrors' htimes (hevictions.trans hsame.symm)
      have hremaining := @countAll_remaining now decision.windowMillis
        (keyed decision.endpointClass decision.dimensions) left none
        (by simpa [keyed, Function.comp_def] using hdecision.names) (hevictions.trans hsame.symm)
        (by simpa [keyed] using hdecision.limits)
        (by
          intro head hhead counter hreading
          rcases List.mem_map.mp hhead with ⟨dimension, hdimension, rfl⟩
          rw [(hforgets.forgets _).reading_eq (Int.le_refl now)] at hreading
          exact hbelow dimension hdimension counter hreading)
        (by
          intro current hcurrent
          cases hcurrent)
      have hquota : (countAll now decision.windowMillis left none
          (keyed decision.endpointClass decision.dimensions)).1 ≠ none := by
        rw [keyed]
        cases hdimensions : decision.dimensions with
        | nil => exact absurd hdimensions hdecision.dimensions
        | cons dimension rest => exact countAll_ne_none _ _ _ _
      dsimp only at hcounts
      rw [Option.map_none] at hcounts
      generalize countAll now decision.windowMillis left none
        (keyed decision.endpointClass decision.dimensions) = counted
        at hcounts hremaining hquota hlocal
      rw [consumeScript_counts redis decision.windowMillis now hindex] at hremote
      generalize incrementBudgets redis decision.windowMillis now store none
        (budgets sha256 decision.endpointClass decision.dimensions) = incremented
        at hcounts hremote
      rcases incremented with ⟨quota, later⟩
      rcases counted with ⟨localQuota, after⟩
      rcases hcounts with ⟨hquotas, hmirrors', hspec⟩
      dsimp only at hquotas hmirrors' hspec hremaining hquota hlocal
      cases quota with
      | none => exact absurd hquotas hquota
      | some quota =>
          rw [hquotas] at hremaining hlocal
          have hpositive : 0 ≤ quota.remaining := hremaining _ rfl
          rw [readScriptResult_allowed decision hpositive] at hremote
          refine ⟨quotaOf quota, hempty, ?_, ?_, ?_, ?_⟩
          · rw [hlocal]
            rfl
          · rw [hremote]
          · rw [hlocal, hremote]
            exact hmirrors'
          · rw [hlocal, hremote]
            exact hspec.of_forgets hforgets

end Steps

end RateLimits
end Pertexo
