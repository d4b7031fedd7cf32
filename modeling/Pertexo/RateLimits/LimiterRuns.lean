import Mathlib.Data.List.Induction
import Pertexo.RateLimits.LimiterSteps

/-!
# Runs of the two limiters

## A run of decisions

Both limiters start without counters and take the same decisions at the same
times.
-/

namespace Pertexo
namespace RateLimits

open Library Values LocalRateLimiter

structure RateLimitStep where
  now : Int
  decision : RateLimitDecision

def localAfter (steps : List RateLimitStep) : LocalRateLimiter :=
  steps.foldl (fun limiter step => (limiter.consume step.now step.decision).2)
    LocalRateLimiter.empty

def storeAfter {Store : Type} (redis : RedisCommands Store) (sha256 : Bytes -> String)
    (store : Store) (steps : List RateLimitStep) : Store :=
  steps.foldl (fun store step => (consume redis sha256 store step.now step.decision).2) store

/-- The counters that the decisions of a run name. -/
def namedBy (steps : List RateLimitStep) : Set (RateLimitEndpointClass × RateLimitDimension) :=
  fun counter => exists step, step ∈ steps ∧ step.decision.endpointClass = counter.1 ∧
    counter.2 ∈ step.decision.dimensions

theorem localAfter_concat (steps : List RateLimitStep) (step : RateLimitStep) :
    localAfter (steps ++ [step]) =
      ((localAfter steps).consume step.now step.decision).2 := by
  rw [localAfter, List.foldl_append]
  rfl

theorem storeAfter_concat {Store : Type} {redis : RedisCommands Store}
    {sha256 : Bytes -> String} {store : Store} (steps : List RateLimitStep)
    (step : RateLimitStep) :
    storeAfter redis sha256 store (steps ++ [step]) =
      (consume redis sha256 (storeAfter redis sha256 store steps) step.now step.decision).2 := by
  rw [storeAfter, List.foldl_append]
  rfl

theorem namedBy_mono {steps more : List RateLimitStep}
    (h : forall step, step ∈ steps -> step ∈ more) : namedBy steps ⊆ namedBy more := by
  intro counter hcounter
  rcases hcounter with ⟨step, hstep, hnames⟩
  exact ⟨step, h step hstep, hnames⟩

theorem mem_namedBy {steps : List RateLimitStep} {step : RateLimitStep} (hstep : step ∈ steps)
    {dimension : RateLimitDimension} (hdimension : dimension ∈ step.decision.dimensions) :
    (step.decision.endpointClass, dimension) ∈ namedBy steps :=
  ⟨step, hstep, rfl, hdimension⟩

theorem evictions_mono (steps more : List RateLimitStep) :
    (localAfter steps).evictions ≤ (localAfter (steps ++ more)).evictions := by
  induction more using List.reverseRecOn with
  | nil =>
      rw [List.append_nil]
  | append_singleton more step ih =>
      rw [← List.append_assoc, localAfter_concat]
      exact Nat.le_trans ih (consume_evictions _ _ _)

/-!
## Answers

The wait of a refusal is no part of the comparison: the client caps the script's at
a minute.
-/

def DistributedRateLimitResult.isAllowed : DistributedRateLimitResult -> Bool
  | allowed _ => true
  | refused _ _ => false

def DistributedRateLimitResult.quota? : DistributedRateLimitResult -> Option RateLimitQuota
  | allowed quota => quota
  | refused _ _ => none

def DistributedRateLimitResult.limited? :
    DistributedRateLimitResult -> Option RateLimitDimensionKind
  | allowed _ => none
  | refused _ limitedDimension => some limitedDimension

structure SameAnswer (left right : DistributedRateLimitResult) : Prop where
  allowed : left.isAllowed = right.isAllowed
  quota : left.quota? = right.quota?
  limited : left.limited? = right.limited?

/-- The last exhausted dimension is of the kind of the first that waits longest. -/
def LastWaitsLongest (limiter : LocalRateLimiter) (now : Int)
    (decision : RateLimitDecision) : Prop :=
  ((limiter.exhausted now decision).argmax Limited.retryMillis).map
      (fun limited => limited.dimension.kind) =
    (limiter.exhausted now decision).getLast?.map fun limited => limited.dimension.kind

section Runs

variable {Store : Type} {redis : RedisCommands Store} {expired : Int -> Int -> Bool}
    {entry : Store -> String -> Option RedisEntry} {sha256 : Bytes -> String}
    {store : Store}

/-- What the two limiters have to do at a step, after the steps before it. -/
structure AgreesAt (redis : RedisCommands Store)
    (entry : Store -> String -> Option RedisEntry) (sha256 : Bytes -> String)
    (store : Store) (before : List RateLimitStep) (step : RateLimitStep) : Prop where
  answer : exists result,
    (consume redis sha256 (storeAfter redis sha256 store before) step.now step.decision).1 =
        .ok result ∧
      SameAnswer ((localAfter before).consume step.now step.decision).1 result
  refusedLocal :
    ((localAfter before).consume step.now step.decision).1.isAllowed = false ->
      forall later, step.now ≤ later -> forall name,
        (localAfter (before ++ [step])).reading later name =
          (localAfter before).reading later name
  refusedStore :
    ((localAfter before).consume step.now step.decision).1.isAllowed = false ->
      storeAfter redis sha256 store (before ++ [step]) = storeAfter redis sha256 store before
  allowed :
    ((localAfter before).consume step.now step.decision).1.isAllowed = true ->
      forall dimension, dimension ∈ step.decision.dimensions -> exists counter,
        (localAfter (before ++ [step])).reading step.now
            (counterName step.decision.endpointClass dimension) = some counter ∧
          entry (storeAfter redis sha256 store (before ++ [step]))
            (counterKey sha256 step.decision.endpointClass dimension) = some counter.entry ∧
          counter.count ≤ dimension.limit
  withinLocal : forall name counter,
    (localAfter (before ++ [step])).counters.get? name = some counter ->
      exists named, named ∈ namedBy (before ++ [step]) ∧ counterName named.1 named.2 = name ∧
        counter.count ≤ named.2.limit
  withinStore : forall key found,
    entry (storeAfter redis sha256 store (before ++ [step])) key = some found ->
      exists named, named ∈ namedBy (before ++ [step]) ∧
        counterKey sha256 named.1 named.2 = key ∧ found.value ≤ named.2.limit

/-- A run, as the limiters see it: admitted decisions on one clock, no counter evicted, digests
that tell the bytes of its counters apart. -/
structure IsRun (redis : RedisCommands Store) (expired : Int -> Int -> Bool)
    (entry : Store -> String -> Option RedisEntry) (sha256 : Bytes -> String)
    (store : Store) (run : List RateLimitStep) : Prop where
  fresh : forall key, entry store key = none
  admitted : forall step, step ∈ run -> assertDecision step.decision = .ok ()
  clock : (run.map RateLimitStep.now).Pairwise (fun earlier later => earlier ≤ later)
  kept : (localAfter run).evictions = 0
  digests : forall counter, counter ∈ namedBy run -> forall other, other ∈ namedBy run ->
    sha256 (counterBytes counter.1 counter.2) = sha256 (counterBytes other.1 other.2) ->
      counterBytes counter.1 counter.2 = counterBytes other.1 other.2

/-- No two names of a run have the same bytes in UTF-8. -/
def NamesApart (run : List RateLimitStep) : Prop :=
  forall counter, counter ∈ namedBy run -> forall other, other ∈ namedBy run ->
    counterBytes counter.1 counter.2 = counterBytes other.1 other.2 ->
      counterName counter.1 counter.2 = counterName other.1 other.2

/-- The clock and the window add exactly, and the store's timeouts end with the clock. -/
structure KeepsTime (redis : RedisCommands Store) (expired : Int -> Int -> Bool)
    (entry : Store -> String -> Option RedisEntry) (sha256 : Bytes -> String)
    (store : Store) (run : List RateLimitStep) : Prop where
  exact : forall step, step ∈ run ->
    addNumbers step.now step.decision.windowMillis = step.now + step.decision.windowMillis
  timeouts : forall before step after, run = before ++ step :: after ->
    forall dimension, dimension ∈ step.decision.dimensions ->
      TimesOut expired entry (storeAfter redis sha256 store before) step.now
        (counterKey sha256 step.decision.endpointClass dimension)

theorem IsRun.keysAgree {run : List RateLimitStep}
    (h : IsRun redis expired entry sha256 store run) (hnames : NamesApart run) :
    KeysAgree sha256 (namedBy run) := by
  intro counter hcounter other hother
  constructor
  · exact counterKey_eq_of_name
  · intro hkey
    have hbytes := h.digests counter hcounter other hother (digest_eq_of_counterKey hkey)
    exact hnames counter hcounter other hother hbytes

theorem IsRun.evictions_eq {run before after : List RateLimitStep}
    (h : IsRun redis expired entry sha256 store run) (hrun : run = before ++ after) :
    (localAfter before).evictions = 0 := by
  have hle := evictions_mono before after
  rw [← hrun, h.kept] at hle
  exact Nat.le_zero.mp hle

theorem IsRun.le_now {run before after : List RateLimitStep} {step : RateLimitStep}
    (h : IsRun redis expired entry sha256 store run) (hrun : run = before ++ step :: after) :
    forall earlier, earlier ∈ before -> earlier.now ≤ step.now := by
  intro earlier hearlier
  have hclock := h.clock
  rw [hrun, List.map_append, List.pairwise_append] at hclock
  exact hclock.right.right _ (List.mem_map_of_mem hearlier) _
    (List.mem_map_of_mem List.mem_cons_self)

/-!
## One step of a run
-/

theorem step_outcome (hredis : KeepsCounters redis expired entry) {run : List RateLimitStep}
    (h : IsRun redis expired entry sha256 store run) (hnames : NamesApart run)
    (htime : KeepsTime redis expired entry sha256 store run)
    {before after : List RateLimitStep} {step : RateLimitStep}
    (hrun : run = before ++ step :: after)
    (hmirrors : MirrorsAll entry sha256 (namedBy run) step.now (localAfter before)
      (storeAfter redis sha256 store before)) :
    (exists first last, Refuses redis sha256 (localAfter before)
        (storeAfter redis sha256 store before) step.now step.decision first last) ∨
      exists quota, Allows redis entry sha256 (namedBy run) (localAfter before)
        (storeAfter redis sha256 store before) step.now step.decision quota := by
  have hmem : step ∈ run := by
    rw [hrun]
    exact List.mem_append_right _ List.mem_cons_self
  apply consume_spec hredis (h.keysAgree hnames) (h.admitted step hmem) (htime.exact step hmem)
  · exact fun dimension hdimension => mem_namedBy hmem hdimension
  · exact hmirrors
  · exact htime.timeouts before step after hrun
  · have hconcat : run = (before ++ [step]) ++ after := by
      rw [hrun, List.append_assoc, List.singleton_append]
    rw [← localAfter_concat, h.evictions_eq hrun, h.evictions_eq hconcat]

/-- Through a run the store mirrors the limiter under every name of the run. -/
theorem mirrorsAll_of_run (hredis : KeepsCounters redis expired entry)
    {run : List RateLimitStep} (h : IsRun redis expired entry sha256 store run)
    (hnames : NamesApart run) (htime : KeepsTime redis expired entry sha256 store run)
    (before : List RateLimitStep) :
    forall after, run = before ++ after -> forall now,
      (forall step, step ∈ before -> step.now ≤ now) ->
        MirrorsAll entry sha256 (namedBy run) now (localAfter before)
          (storeAfter redis sha256 store before) := by
  induction before using List.reverseRecOn with
  | nil =>
      intro after _ now _ counter _
      show Mirrors now none (entry store _)
      rw [h.fresh]
      exact Mirrors.absent
  | append_singleton before step ih =>
      intro after hrun now hnow
      rw [List.append_assoc, List.singleton_append] at hrun
      have hbefore := ih _ hrun step.now (h.le_now hrun)
      have hlater : step.now ≤ now := hnow step (List.mem_append_right _ List.mem_cons_self)
      intro counter hcounter
      rw [localAfter_concat, storeAfter_concat]
      apply Mirrors.later _ hlater
      rcases step_outcome hredis h hnames htime hrun hbefore with ⟨_, _, hrefuses⟩ | ⟨_, hallows⟩
      · rcases hrefuses.result with ⟨_, hresult⟩
        rw [hresult]
        exact (hbefore counter hcounter).forget (hrefuses.forgets.forgets _)
      · exact hallows.mirrors counter hcounter

/-!
## Counters and limits

A counter never exceeds the limit of a decision that counted on it.
-/

/-- Every counter of either side is within the limit of a decision that counts on it. -/
structure WithinLimits (entry : Store -> String -> Option RedisEntry) (sha256 : Bytes -> String)
    (named : Set (RateLimitEndpointClass × RateLimitDimension)) (limiter : LocalRateLimiter)
    (store : Store) : Prop where
  names : forall name counter, limiter.counters.get? name = some counter ->
    exists budget, budget ∈ named ∧ counterName budget.1 budget.2 = name ∧
      counter.count ≤ budget.2.limit
  keys : forall key found, entry store key = some found ->
    exists budget, budget ∈ named ∧ counterKey sha256 budget.1 budget.2 = key ∧
      found.value ≤ budget.2.limit

section

variable {named other : Set (RateLimitEndpointClass × RateLimitDimension)}
    {limiter : LocalRateLimiter} {now : Int} {decision : RateLimitDecision}

theorem WithinLimits.mono (h : WithinLimits entry sha256 named limiter store)
    (hsubset : named ⊆ other) : WithinLimits entry sha256 other limiter store := by
  constructor
  · intro name counter hcounter
    rcases h.names name counter hcounter with ⟨budget, hbudget, hrest⟩
    exact ⟨budget, hsubset hbudget, hrest⟩
  · intro key found hfound
    rcases h.keys key found hfound with ⟨budget, hbudget, hrest⟩
    exact ⟨budget, hsubset hbudget, hrest⟩

theorem WithinLimits.names_of_forgets (h : WithinLimits entry sha256 named limiter store)
    {after : LocalRateLimiter} {name : ScriptString} (hforgets : ForgetsAt now limiter after name)
    {counter : Counter} (hcounter : after.counters.get? name = some counter) :
    exists budget, budget ∈ named ∧ counterName budget.1 budget.2 = name ∧
      counter.count ≤ budget.2.limit := by
  cases hforgets with
  | inl hsame =>
      rw [hsame] at hcounter
      exact h.names name counter hcounter
  | inr hgone =>
      rw [hgone.left] at hcounter
      cases hcounter

theorem WithinLimits.refused (h : WithinLimits entry sha256 named limiter store)
    {first last : Limited} (hrefuses : Refuses redis sha256 limiter store now decision first last) :
    WithinLimits entry sha256 named (limiter.consume now decision).2
      (consume redis sha256 store now decision).2 := by
  constructor
  · intro name counter hcounter
    exact h.names_of_forgets (hrefuses.forgets.forgets name) hcounter
  · rcases hrefuses.result with ⟨_, hresult⟩
    rw [hresult]
    exact h.keys

theorem WithinLimits.allowed (h : WithinLimits entry sha256 named limiter store)
    {quota : RateLimitQuota}
    (hallows : Allows redis entry sha256 other limiter store now decision quota)
    (hlimits : forall dimension, dimension ∈ decision.dimensions -> 0 < dimension.limit)
    (hnamed : forall dimension, dimension ∈ decision.dimensions ->
      (decision.endpointClass, dimension) ∈ named) :
    WithinLimits entry sha256 named (limiter.consume now decision).2
      (consume redis sha256 store now decision).2 := by
  constructor
  · intro name counter hcounter
    by_cases hname : name ∈ decision.dimensions.map (counterName decision.endpointClass)
    · rcases List.mem_map.mp hname with ⟨dimension, hdimension, rfl⟩
      rw [(hallows.counts.named dimension hdimension).left] at hcounter
      cases hcounter
      exact ⟨_, hnamed dimension hdimension, rfl,
        counted_le_limit hallows.exhausted hdimension (hlimits dimension hdimension)⟩
    · exact h.names_of_forgets (hallows.counts.otherName name hname) hcounter
  · intro key found hfound
    by_cases hkey : key ∈ decision.dimensions.map (counterKey sha256 decision.endpointClass)
    · rcases List.mem_map.mp hkey with ⟨dimension, hdimension, rfl⟩
      rw [(hallows.counts.named dimension hdimension).right] at hfound
      cases hfound
      exact ⟨_, hnamed dimension hdimension, rfl,
        counted_le_limit hallows.exhausted hdimension (hlimits dimension hdimension)⟩
    · rw [hallows.counts.otherKey key hkey] at hfound
      exact h.keys key found hfound

end

theorem withinLimits_of_run (hredis : KeepsCounters redis expired entry)
    {run : List RateLimitStep} (h : IsRun redis expired entry sha256 store run)
    (hnames : NamesApart run) (htime : KeepsTime redis expired entry sha256 store run)
    (before : List RateLimitStep) :
    forall after, run = before ++ after ->
      WithinLimits entry sha256 (namedBy before) (localAfter before)
        (storeAfter redis sha256 store before) := by
  induction before using List.reverseRecOn with
  | nil =>
      intro after _
      constructor
      · intro name counter hcounter
        cases hcounter
      · intro key found hfound
        have hnone : entry store key = some found := hfound
        rw [h.fresh] at hnone
        cases hnone
  | append_singleton before step ih =>
      intro after hrun
      rw [List.append_assoc, List.singleton_append] at hrun
      have hbefore := mirrorsAll_of_run hredis h hnames htime before _ hrun step.now (h.le_now hrun)
      have hwithin := (ih _ hrun).mono
        (namedBy_mono fun other hother => @List.mem_append_left _ _ _ [step] hother)
      rw [localAfter_concat, storeAfter_concat]
      rcases step_outcome hredis h hnames htime hrun hbefore with ⟨_, _, hrefuses⟩ | ⟨_, hallows⟩
      · exact hwithin.refused hrefuses
      · have hstep : step ∈ run := by
          rw [hrun]
          exact List.mem_append_right _ List.mem_cons_self
        have hlast : step ∈ before ++ [step] := List.mem_append_right _ List.mem_cons_self
        exact hwithin.allowed hallows (isAdmitted_of_assertDecision (h.admitted step hstep)).limits
          fun dimension hdimension => mem_namedBy hlast hdimension

/-!
## Agreement

Whatever the decisions, the two limiters allow the same requests with the same
quotas, and count the same. They name the same dimension of a refusal exactly when the
last exhausted dimension is of the kind of the one that waits longest.
-/

theorem agreesAt_iff (hredis : KeepsCounters redis expired entry)
    {run : List RateLimitStep} (h : IsRun redis expired entry sha256 store run)
    (hnames : NamesApart run) (htime : KeepsTime redis expired entry sha256 store run)
    {before after : List RateLimitStep} {step : RateLimitStep}
    (hrun : run = before ++ step :: after) :
    AgreesAt redis entry sha256 store before step ↔
      LastWaitsLongest (localAfter before) step.now step.decision := by
  have hbefore := mirrorsAll_of_run hredis h hnames htime before _ hrun step.now (h.le_now hrun)
  have hconcat : run = (before ++ [step]) ++ after := by
    rw [hrun, List.append_assoc, List.singleton_append]
  have hwithin := withinLimits_of_run hredis h hnames htime (before ++ [step]) after hconcat
  have hstep : step ∈ run := by
    rw [hrun]
    exact List.mem_append_right _ List.mem_cons_self
  have hadmitted := isAdmitted_of_assertDecision (h.admitted step hstep)
  rcases step_outcome hredis h hnames htime hrun hbefore with
    ⟨first, last, hrefuses⟩ | ⟨quota, hallows⟩
  · rcases hrefuses.result with ⟨retryAfterSeconds, hresult⟩
    rw [LastWaitsLongest, hrefuses.longest, hrefuses.final]
    constructor
    · intro hagrees
      rcases hagrees.answer with ⟨result, hanswer, hsame⟩
      rw [hresult] at hanswer
      cases hanswer
      have hlimited := hsame.limited
      rw [hrefuses.localResult] at hlimited
      exact hlimited
    · intro hkind
      refine ⟨⟨_, congrArg Prod.fst hresult, ?_⟩, ?_, ?_, ?_, hwithin.names, hwithin.keys⟩
      · rw [hrefuses.localResult]
        exact ⟨rfl, rfl, hkind⟩
      · intro _ later hlater name
        rw [localAfter_concat]
        exact (hrefuses.forgets.forgets name).reading_eq hlater
      · intro _
        rw [storeAfter_concat, hresult]
      · intro hallowed
        rw [hrefuses.localResult] at hallowed
        cases hallowed
  · constructor
    · intro _
      rw [LastWaitsLongest, hallows.exhausted]
      rfl
    · intro _
      refine ⟨⟨_, hallows.result, ?_⟩, ?_, ?_, ?_, hwithin.names, hwithin.keys⟩
      · rw [hallows.localResult]
        exact ⟨rfl, rfl, rfl⟩
      · intro hrefused
        rw [hallows.localResult] at hrefused
        cases hrefused
      · intro hrefused
        rw [hallows.localResult] at hrefused
        cases hrefused
      · intro _ dimension hdimension
        rcases hallows.counts.named dimension hdimension with ⟨hheld, hfound⟩
        have hwindow : 0 < step.decision.windowMillis := by
          have hpositive := hadmitted.window
          rw [RateLimitDecision.windowMillis]
          omega
        have halive := @alive_counted step.now step.decision.windowMillis (localAfter before)
          (counterName step.decision.endpointClass dimension) hwindow (htime.exact step hstep)
        refine ⟨counted step.now step.decision.windowMillis _ _, ?_, ?_,
          counted_le_limit hallows.exhausted hdimension (hadmitted.limits dimension hdimension)⟩
        · rw [localAfter_concat, reading, hheld]
          apply Option.filter_some_pos
          simpa using halive
        · rw [storeAfter_concat, hfound]

theorem local_refines_script (hredis : KeepsCounters redis expired entry)
    {run : List RateLimitStep} (h : IsRun redis expired entry sha256 store run)
    (hnames : NamesApart run) (htime : KeepsTime redis expired entry sha256 store run) :
    (forall before step after, run = before ++ step :: after ->
        AgreesAt redis entry sha256 store before step) ↔
      forall before step after, run = before ++ step :: after ->
        LastWaitsLongest (localAfter before) step.now step.decision := by
  constructor
  · intro hagrees before step after hrun
    exact (agreesAt_iff hredis h hnames htime hrun).mp (hagrees before step after hrun)
  · intro hlongest before step after hrun
    exact (agreesAt_iff hredis h hnames htime hrun).mpr (hlongest before step after hrun)

end Runs

/-!
## Two dimensions exhausted together

A store as a function of its keys. Two requests on the same address and token,
each with a budget of one: both counters are exhausted and wait as long, so the
limiter names the first and the script the last.
-/

def keyspace : RedisCommands (String -> Option RedisEntry) where
  get store now key := (seenAt (fun deadline now => decide (deadline ≤ now))
    (fun store => store) store now key).map RedisEntry.value
  pttl store now key :=
    match seenAt (fun deadline now => decide (deadline ≤ now)) (fun store => store)
        store now key with
    | none => -2
    | some found => match found.deadline with
        | none => -1
        | some deadline => deadline - now
  incr store now key :=
    let found := seenAt (fun deadline now => decide (deadline ≤ now)) (fun store => store)
      store now key
    let value := (found.map RedisEntry.value).getD 0 + 1
    (value, fun other =>
      if other = key then some { value := value, deadline := found.bind RedisEntry.deadline }
      else store other)
  pexpire store now key millis := fun other =>
    if other = key then
      (seenAt (fun deadline now => decide (deadline ≤ now)) (fun store => store)
        store now key).map fun found => { found with deadline := some (now + millis) }
    else store other

theorem keepsCounters_keyspace :
    KeepsCounters keyspace (fun deadline now => decide (deadline ≤ now))
      (fun store => store) where
  kept h := decide_eq_false (by omega)
  gone h := decide_eq_true (by omega)
  get_eq _ _ _ := rfl
  pttl_eq _ _ _ := rfl
  incr_value _ _ _ := rfl
  incr_entry _ _ _ _ := rfl
  pexpire_entry _ _ _ _ _ := rfl

theorem timesOut_keyspace (store : String -> Option RedisEntry) (now : Int) (key : String) :
    TimesOut (fun deadline now => decide (deadline ≤ now))
      (fun (store : String -> Option RedisEntry) => store) store now key := by
  intro found deadline _ _
  exact decide_eq_true_iff

def sampleAddress : RateLimitDimension :=
  { kind := .client_address, identifier := scriptString "203.0.113.7", limit := 1 }

def sampleToken : RateLimitDimension :=
  { kind := .token, identifier := scriptString "callback-1", limit := 1 }

def sampleStep (dimensions : List RateLimitDimension) : RateLimitStep :=
  { now := 1700000000000
    decision :=
      { endpointClass := .callback_ingress, windowSeconds := 60, dimensions := dimensions } }

/-- The digests of the two counters. -/
def sampleDigest (bytes : Bytes) : String :=
  if bytes = counterBytes .callback_ingress sampleAddress then
    "33aeba025c2878616f84f8d816f74f6a667f3028c59a31b6995c5f071109d8f8"
  else "8a83ba93a24c8b96ac64e26eef60d1289e944d494ed5cf25ab03e1a4629de94d"

theorem isRun_sample {dimensions : List RateLimitDimension}
    (hnames : forall dimension, dimension ∈ dimensions ->
      dimension = sampleAddress ∨ dimension = sampleToken)
    (hadmitted : assertDecision (sampleStep dimensions).decision = .ok ())
    (hkept : (localAfter [sampleStep dimensions, sampleStep dimensions]).evictions = 0) :
    IsRun keyspace (fun deadline now => decide (deadline ≤ now)) (fun store => store)
        sampleDigest (fun _ => none) [sampleStep dimensions, sampleStep dimensions] ∧
      NamesApart [sampleStep dimensions, sampleStep dimensions] ∧
      KeepsTime keyspace (fun deadline now => decide (deadline ≤ now)) (fun store => store)
        sampleDigest (fun _ => none) [sampleStep dimensions, sampleStep dimensions] := by
  have hstep : forall step, step ∈ [sampleStep dimensions, sampleStep dimensions] ->
      step = sampleStep dimensions := by
    intro step hmem
    simpa using hmem
  have hnamed : forall counter,
      counter ∈ namedBy [sampleStep dimensions, sampleStep dimensions] ->
        counter.1 = .callback_ingress ∧
          (counter.2 = sampleAddress ∨ counter.2 = sampleToken) := by
    intro counter hcounter
    rcases hcounter with ⟨step, hmem, hclass, hdimension⟩
    rw [hstep step hmem] at hclass hdimension
    exact ⟨hclass.symm, hnames _ hdimension⟩
  have hne : sampleDigest (counterBytes .callback_ingress sampleAddress) ≠
      sampleDigest (counterBytes .callback_ingress sampleToken) := by
    decide
  have hsame : forall counter,
      counter ∈ namedBy [sampleStep dimensions, sampleStep dimensions] -> forall other,
        other ∈ namedBy [sampleStep dimensions, sampleStep dimensions] ->
          sampleDigest (counterBytes counter.1 counter.2) =
            sampleDigest (counterBytes other.1 other.2) -> counter = other := by
    intro counter hcounter other hother hdigest
    rcases hnamed counter hcounter with ⟨hclass, hdimension⟩
    rcases hnamed other hother with ⟨hclass', hdimension'⟩
    apply Prod.ext (hclass.trans hclass'.symm)
    rw [hclass, hclass'] at hdigest
    rcases hdimension with hdimension | hdimension <;>
      rcases hdimension' with hdimension' | hdimension' <;>
        rw [hdimension, hdimension'] at hdigest ⊢
    · exact absurd hdigest hne
    · exact absurd hdigest.symm hne
  refine ⟨⟨fun _ => rfl, ?_, ?_, hkept, ?_⟩, ?_, ?_, ?_⟩
  · intro step hmem
    rw [hstep step hmem]
    exact hadmitted
  · simp
  · intro counter hcounter other hother hdigest
    rw [hsame counter hcounter other hother hdigest]
  · intro counter hcounter other hother hbytes
    rw [hsame counter hcounter other hother (congrArg sampleDigest hbytes)]
  · intro step hmem
    rw [hstep step hmem]
    rfl
  · intro before step after _ dimension _
    exact timesOut_keyspace _ _ _

theorem script_names_other_dimension :
    let step := sampleStep [sampleAddress, sampleToken]
    let store := storeAfter keyspace sampleDigest (fun _ => none) [step]
    IsRun keyspace (fun deadline now => decide (deadline ≤ now)) (fun store => store)
        sampleDigest (fun _ => none) [step, step] ∧
      NamesApart [step, step] ∧
      KeepsTime keyspace (fun deadline now => decide (deadline ≤ now)) (fun store => store)
        sampleDigest (fun _ => none) [step, step] ∧
      ((localAfter [step]).consume step.now step.decision).1 = .refused 60 .client_address ∧
      (consume keyspace sampleDigest store step.now step.decision).1 =
        .ok (.refused 60 .token) := by
  have hrun := @isRun_sample [sampleAddress, sampleToken] (by simp) (by decide)
    (by decide)
  refine ⟨hrun.left, hrun.right.left, hrun.right.right, ?_, ?_⟩
  · decide
  · decide

def surrogateStep (unit : UInt16) : RateLimitStep :=
  sampleStep [{ kind := .token, identifier := [0x61, unit], limit := 1 }]

/-- A lone surrogate is digested as the replacement character, so that two names share a counter
of the store while the limiter keeps one for each. -/
example :
    let first := surrogateStep 0xD800
    let second := surrogateStep 0xFFFD
    ((localAfter [first]).consume second.now second.decision).1.isAllowed = true ∧
      (consume keyspace sampleDigest (storeAfter keyspace sampleDigest (fun _ => none) [first])
        second.now second.decision).1 = .ok (.refused 60 .token) := by
  decide

/-- With one dimension a decision nothing is left to differ on. -/
theorem local_refines_script_sample :
    AgreesAt keyspace (fun store => store) sampleDigest (fun _ => none) []
        (sampleStep [sampleAddress]) ∧
      AgreesAt keyspace (fun store => store) sampleDigest (fun _ => none)
        [sampleStep [sampleAddress]] (sampleStep [sampleAddress]) := by
  have hrun := @isRun_sample [sampleAddress] (by simp) (by decide) (by decide +kernel)
  have hagrees := (local_refines_script keepsCounters_keyspace hrun.left hrun.right.left
    hrun.right.right).mpr (by
    intro before step after hsplit
    cases before with
    | nil =>
        cases hsplit
        unfold LastWaitsLongest
        decide
    | cons first rest =>
        cases rest with
        | nil =>
            cases hsplit
            unfold LastWaitsLongest
            decide
        | cons second rest =>
            have hlength := congrArg List.length hsplit
            simp at hlength)
  exact ⟨hagrees [] _ [sampleStep [sampleAddress]] rfl,
    hagrees [sampleStep [sampleAddress]] _ [] rfl⟩

end RateLimits
end Pertexo
