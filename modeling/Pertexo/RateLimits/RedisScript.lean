import Pertexo.RateLimits.CounterReadings
import Pertexo.RateLimits.Decisions

/-!
# The limiter in the shared store

## Commands of the store

The store is a parameter: what the consume script calls of it, at the time the
script started. `KeepsCounters` says what the script relies on: a counter is
incremented from nothing or from its value, a timeout set on it is kept by an
increment, and a key is gone after its timeout. In the millisecond of the timeout
itself a store may show the key or not.
-/

namespace Pertexo
namespace RateLimits

open Values

structure RedisCommands (Store : Type) where
  get : Store -> Int -> String -> Option Int
  pttl : Store -> Int -> String -> Int
  incr : Store -> Int -> String -> Int × Store
  pexpire : Store -> Int -> String -> Int -> Store

structure RedisEntry where
  value : Int
  deadline : Option Int
deriving DecidableEq, Repr

def RedisEntry.isExpired (expired : Int -> Int -> Bool) (entry : RedisEntry) (now : Int) : Bool :=
  entry.deadline.any fun deadline => expired deadline now

/-- The entry under a key that a command sees at a time. -/
def seenAt {Store : Type} (expired : Int -> Int -> Bool)
    (entry : Store -> String -> Option RedisEntry) (store : Store) (now : Int) (key : String) :
    Option RedisEntry :=
  (entry store key).filter fun found => ! found.isExpired expired now

structure KeepsCounters {Store : Type} (redis : RedisCommands Store)
    (expired : Int -> Int -> Bool) (entry : Store -> String -> Option RedisEntry) : Prop where
  kept : forall {deadline now : Int}, now < deadline -> expired deadline now = false
  gone : forall {deadline now : Int}, deadline < now -> expired deadline now = true
  get_eq : forall store now key,
    redis.get store now key = (seenAt expired entry store now key).map RedisEntry.value
  pttl_eq : forall store now key,
    redis.pttl store now key =
      match seenAt expired entry store now key with
      | none => -2
      | some found => match found.deadline with
          | none => -1
          | some deadline => deadline - now
  incr_value : forall store now key,
    (redis.incr store now key).1 =
      ((seenAt expired entry store now key).map RedisEntry.value).getD 0 + 1
  incr_entry : forall store now key other,
    entry (redis.incr store now key).2 other =
      if other = key then
        some
          { value := ((seenAt expired entry store now key).map RedisEntry.value).getD 0 + 1
            deadline := (seenAt expired entry store now key).bind RedisEntry.deadline }
      else entry store other
  pexpire_entry : forall store now key millis other,
    entry (redis.pexpire store now key millis) other =
      if other = key then
        (seenAt expired entry store now key).map fun found =>
          { found with deadline := some (now + millis) }
      else entry store other

/-!
## The consume script

The pairs are the script's keys with their limits, in order.
-/

section Script

variable {Store : Type} (redis : RedisCommands Store) (window_ms now : Int)

def checkBudgets (store : Store) (index rejected_index retry_ms : Int) :
    List (String × Int) -> Int × Int
  | [] => (rejected_index, retry_ms)
  | (key, limit) :: rest =>
      let count := (redis.get store now key).getD 0
      if count ≥ limit then
        let ttl := redis.pttl store now key
        let ttl := if ttl < 1 then window_ms else ttl
        checkBudgets store (index + 1) index (if ttl > retry_ms then ttl else retry_ms) rest
      else checkBudgets store (index + 1) rejected_index retry_ms rest

structure ScriptQuota where
  remaining : Int
  tightest : Int
  reset_ms : Int

/-- INCR, and PEXPIRE where it made the counter. -/
def incrementBudget (store : Store) (key : String) : Int × Store :=
  let (count, store) := redis.incr store now key
  if count = 1 then (count, redis.pexpire store now key window_ms) else (count, store)

def incrementBudgets (store : Store) (quota : Option ScriptQuota) :
    List (String × Int) -> Option ScriptQuota × Store
  | [] => (quota, store)
  | (key, limit) :: rest =>
      let (count, store) := incrementBudget redis window_ms now store key
      let candidate : ScriptQuota :=
        { remaining := limit - count
          tightest := limit
          reset_ms := redis.pttl store now key }
      match quota with
      | none => incrementBudgets store (some candidate) rest
      | some current =>
          if limit - count < current.remaining then
            incrementBudgets store (some candidate) rest
          else incrementBudgets store (some current) rest

def consumeScript (store : Store) (budgets : List (String × Int)) : List Int × Store :=
  let (rejected_index, retry_ms) := checkBudgets redis window_ms now store 1 0 0 budgets
  if rejected_index > 0 then ([0, retry_ms, rejected_index], store)
  else
    match incrementBudgets redis window_ms now store none budgets with
    -- A reply ends at the first nil of the table.
    | (none, store) => ([1, 0, 0], store)
    | (some quota, store) =>
        ([1, 0, 0, quota.remaining, quota.tightest, quota.reset_ms], store)

theorem consumeScript_rejects {store : Store} {budgets : List (String × Int)} {i : Nat}
    (h : (checkBudgets redis window_ms now store 1 0 0 budgets).1 = 1 + i) :
    consumeScript redis window_ms now store budgets =
      ([0, (checkBudgets redis window_ms now store 1 0 0 budgets).2, 1 + (i : Int)], store) := by
  rw [consumeScript]
  dsimp only
  rw [h, if_pos (by omega)]

theorem consumeScript_counts {store : Store} {budgets : List (String × Int)}
    (h : (checkBudgets redis window_ms now store 1 0 0 budgets).1 = 0) :
    consumeScript redis window_ms now store budgets =
      match incrementBudgets redis window_ms now store none budgets with
      | (none, store) => ([1, 0, 0], store)
      | (some quota, store) =>
          ([1, 0, 0, quota.remaining, quota.tightest, quota.reset_ms], store) := by
  rw [consumeScript]
  dsimp only
  rw [h, if_neg (by omega)]

end Script

/-!
## The client of the script
-/

def parseScriptResult (value : List Int) : Except String (List Int) :=
  if value.length ≠ 3 ∧ value.length ≠ 6 then .error "Invalid rate-limit script result"
  else .ok value

def readScriptResult (decision : RateLimitDecision) (value : List Int) :
    Except String DistributedRateLimitResult := do
  let value ← parseScriptResult value
  let allowed := value[0]?.getD (-1)
  let retryMilliseconds := value[1]?.getD (-1)
  let limitedIndex := value[2]?.getD 0
  match value[3]?, value[4]?, value[5]? with
  | some remaining, some limit, some resetMilliseconds =>
      if allowed = 1 ∧ retryMilliseconds = 0 ∧ limitedIndex = 0 then
        return .allowed (some
          { limit := limit
            remaining := max 0 remaining
            resetSeconds := max 1 (ceilSeconds resetMilliseconds) })
      else readRefusal decision allowed retryMilliseconds limitedIndex
  | _, _, _ => readRefusal decision allowed retryMilliseconds limitedIndex
where
  readRefusal (decision : RateLimitDecision) (allowed retryMilliseconds limitedIndex : Int) :
      Except String DistributedRateLimitResult :=
    let limitedDimension :=
      if limitedIndex - 1 < 0 then none else decision.dimensions[(limitedIndex - 1).toNat]?
    match limitedDimension with
    | none => .error "Invalid rate-limit script result"
    | some dimension =>
        if allowed ≠ 0 ∨ retryMilliseconds < 0 then .error "Invalid rate-limit script result"
        else .ok (.refused (min 60 (max 1 (ceilSeconds retryMilliseconds))) dimension.kind)

def budgets (sha256 : Bytes -> String) (endpointClass : RateLimitEndpointClass)
    (dimensions : List RateLimitDimension) : List (String × Int) :=
  dimensions.map fun dimension => (counterKey sha256 endpointClass dimension, dimension.limit)

def consume {Store : Type} (redis : RedisCommands Store) (sha256 : Bytes -> String)
    (store : Store) (now : Int) (decision : RateLimitDecision) :
    Except String DistributedRateLimitResult × Store :=
  match assertDecision decision with
  | .error message => (.error message, store)
  | .ok () =>
      let (value, store) :=
        consumeScript redis decision.windowMillis now store
          (budgets sha256 decision.endpointClass decision.dimensions)
      (readScriptResult decision value, store)

/-!
## What the consume script replies

Where the store shows the readings of a limiter, the script rejects for the last
exhausted dimension.
-/

open Library Values LocalRateLimiter

def Counter.entry (counter : Counter) : RedisEntry :=
  { value := counter.count, deadline := some counter.expiresAt }

section Script

variable {Store : Type} {redis : RedisCommands Store} {expired : Int -> Int -> Bool}
    {entry : Store -> String -> Option RedisEntry} {sha256 : Bytes -> String}
    {endpointClass : RateLimitEndpointClass} {now window_ms : Int} {store : Store}
    {limiter : LocalRateLimiter}

/-- A command sees under a key what the limiter reads. -/
def Shows (expired : Int -> Int -> Bool) (entry : Store -> String -> Option RedisEntry)
    (store : Store) (limiter : LocalRateLimiter) (now : Int) (key : String)
    (name : ScriptString) : Prop :=
  seenAt expired entry store now key = (limiter.reading now name).map Counter.entry

def waitOf (limiter : LocalRateLimiter) (now : Int) (endpointClass : RateLimitEndpointClass)
    (dimension : RateLimitDimension) : Option Limited :=
  (limiter.reading now (counterName endpointClass dimension)).bind fun counter =>
    if counter.count < dimension.limit then none
    else some { retryMillis := counter.expiresAt - now, dimension := dimension }

theorem exhaustedAmong_cons (dimension : RateLimitDimension)
    (rest : List RateLimitDimension) :
    limiter.exhaustedAmong now (keyed endpointClass (dimension :: rest)) =
      (waitOf limiter now endpointClass dimension).toList ++
        limiter.exhaustedAmong now (keyed endpointClass rest) := by
  rw [exhaustedAmong, keyed, List.map_cons, List.filterMap_cons, waitOf]
  cases hbind : (limiter.reading now (counterName endpointClass dimension)).bind _ with
  | none => rfl
  | some waiting => rfl

theorem dimension_of_waitOf {dimension : RateLimitDimension} {waiting : Limited}
    (h : waitOf limiter now endpointClass dimension = some waiting) :
    waiting.dimension = dimension := by
  rcases Option.bind_eq_some_iff.mp h with ⟨counter, _, hwaiting⟩
  split at hwaiting
  · cases hwaiting
  · cases hwaiting
    rfl

theorem get_ge_iff (hredis : KeepsCounters redis expired entry) {dimension : RateLimitDimension}
    (hlimit : 0 < dimension.limit)
    (hshows : Shows expired entry store limiter now (counterKey sha256 endpointClass dimension)
      (counterName endpointClass dimension)) :
    (redis.get store now (counterKey sha256 endpointClass dimension)).getD 0 ≥ dimension.limit ↔
      (waitOf limiter now endpointClass dimension).isSome = true := by
  rw [hredis.get_eq, hshows, waitOf]
  cases hreading : limiter.reading now (counterName endpointClass dimension) with
  | none => simp [hlimit]
  | some counter =>
      by_cases hcount : counter.count < dimension.limit
      · simp [hcount, Counter.entry]
      · have hle : dimension.limit ≤ counter.count := by omega
        simp [hcount, Counter.entry, hle]

theorem checkBudgets_spec (hredis : KeepsCounters redis expired entry)
    (dimensions : List RateLimitDimension) (index rejected_index retry_ms : Int)
    (hlimits : forall dimension, dimension ∈ dimensions -> 0 < dimension.limit)
    (hshows : forall dimension, dimension ∈ dimensions ->
      Shows expired entry store limiter now (counterKey sha256 endpointClass dimension)
        (counterName endpointClass dimension)) :
    let found := limiter.exhaustedAmong now (keyed endpointClass dimensions)
    let reply := checkBudgets redis window_ms now store index rejected_index retry_ms
      (budgets sha256 endpointClass dimensions)
    retry_ms ≤ reply.2 ∧ (found = [] -> reply.1 = rejected_index) ∧
      forall last, found.getLast? = some last ->
        exists i : Nat, dimensions[i]? = some last.dimension ∧ reply.1 = index + i := by
  induction dimensions generalizing index rejected_index retry_ms with
  | nil =>
      refine ⟨Int.le_refl _, fun _ => rfl, ?_⟩
      intro last hlast
      cases hlast
  | cons dimension rest ih =>
      have hlimits' : forall other, other ∈ rest -> 0 < other.limit := fun other hother =>
        hlimits other (List.mem_cons_of_mem _ hother)
      have hshows' : forall other, other ∈ rest ->
          Shows expired entry store limiter now (counterKey sha256 endpointClass other)
            (counterName endpointClass other) := fun other hother =>
        hshows other (List.mem_cons_of_mem _ hother)
      have hget := get_ge_iff hredis (hlimits dimension List.mem_cons_self)
        (hshows dimension List.mem_cons_self)
      dsimp only
      rw [exhaustedAmong_cons, budgets, List.map_cons, checkBudgets]
      dsimp only
      cases hwait : waitOf limiter now endpointClass dimension with
      | none =>
          rw [hwait] at hget
          rw [if_neg (by simpa using hget)]
          rcases ih (index + 1) rejected_index retry_ms hlimits' hshows' with
            ⟨hretry, hnone, hlast⟩
          refine ⟨hretry, hnone, ?_⟩
          intro last hfound
          rcases hlast last hfound with ⟨i, hi, hreply⟩
          refine ⟨i + 1, hi, ?_⟩
          rw [budgets] at hreply
          rw [hreply]
          omega
      | some waiting =>
          rw [hwait] at hget
          rw [if_pos (hget.mpr rfl)]
          generalize hraised : (if (if redis.pttl store now
              (counterKey sha256 endpointClass dimension) < 1 then window_ms
            else redis.pttl store now (counterKey sha256 endpointClass dimension)) > retry_ms then
              (if redis.pttl store now
                (counterKey sha256 endpointClass dimension) < 1 then window_ms
              else redis.pttl store now (counterKey sha256 endpointClass dimension))
            else retry_ms) = raised
          have hle : retry_ms ≤ raised := by
            rw [← hraised]
            split <;> omega
          rcases ih (index + 1) index raised hlimits' hshows' with ⟨hretry, hnone, hlast⟩
          refine ⟨Int.le_trans hle hretry, ?_, ?_⟩
          · intro hempty
            cases hempty
          · intro last hfound
            rw [Option.toList_some, List.singleton_append, List.getLast?_cons] at hfound
            cases hrest : (limiter.exhaustedAmong now (keyed endpointClass rest)).getLast? with
            | none =>
                rw [hrest] at hfound
                cases hfound
                refine ⟨0, ?_, ?_⟩
                · show some dimension = some waiting.dimension
                  rw [dimension_of_waitOf hwait]
                · have hreply := hnone (List.getLast?_eq_none_iff.mp hrest)
                  rw [budgets] at hreply
                  rw [hreply]
                  simp
            | some later =>
                rw [hrest] at hfound
                cases hfound
                rcases hlast later hrest with ⟨i, hi, hreply⟩
                refine ⟨i + 1, hi, ?_⟩
                rw [budgets] at hreply
                rw [hreply]
                omega

/-!
## The script's count

An increment leaves the counter that the limiter leaves, with the same time to
run: a fresh one gets the window, a live one keeps its timeout.
-/

theorem seenAt_of_entry (hredis : KeepsCounters redis expired entry) {key : String}
    {counter : Counter} (hentry : entry store key = some counter.entry)
    (halive : now < counter.expiresAt) :
    seenAt expired entry store now key = some counter.entry := by
  rw [seenAt, hentry]
  apply Option.filter_some_pos
  simp [RedisEntry.isExpired, Counter.entry, hredis.kept halive]

theorem pttl_of_entry (hredis : KeepsCounters redis expired entry) {key : String}
    {counter : Counter} (hentry : entry store key = some counter.entry)
    (halive : now < counter.expiresAt) :
    redis.pttl store now key = counter.expiresAt - now := by
  rw [hredis.pttl_eq, seenAt_of_entry hredis hentry halive]
  rfl

theorem alive_of_reading {name : ScriptString} {counter : Counter}
    (h : limiter.reading now name = some counter) : now < counter.expiresAt := by
  rw [reading, Option.filter_eq_some_iff] at h
  simpa using h.right

theorem alive_counted {name : ScriptString} (hwindow : 0 < window_ms)
    (hexact : addNumbers now window_ms = now + window_ms) :
    now < (counted now window_ms name (limiter.reading now name)).expiresAt := by
  cases hreading : limiter.reading now name with
  | none =>
      show now < addNumbers now window_ms
      omega
  | some counter =>
      show now < counter.expiresAt
      exact alive_of_reading hreading

structure IncrementSpec (redis : RedisCommands Store)
    (entry : Store -> String -> Option RedisEntry) (now : Int) (store : Store)
    (key : String) (counter : Counter) (result : Int × Store) : Prop where
  count : result.1 = counter.count
  pttl : redis.pttl result.2 now key = counter.expiresAt - now
  self : entry result.2 key = some counter.entry
  other : forall other, other ≠ key -> entry result.2 other = entry store other

theorem incrementBudget_spec (hredis : KeepsCounters redis expired entry) {key : String}
    {name : ScriptString} (hwindow : 0 < window_ms)
    (hexact : addNumbers now window_ms = now + window_ms)
    (hshows : Shows expired entry store limiter now key name)
    (hcounts : forall counter, limiter.reading now name = some counter -> 1 ≤ counter.count) :
    IncrementSpec redis entry now store key
      (counted now window_ms name (limiter.reading now name))
      (incrementBudget redis window_ms now store key) := by
  have halive := @alive_counted now window_ms limiter name hwindow hexact
  have hvalue := hredis.incr_value store now key
  have hentry := hredis.incr_entry store now key
  rw [incrementBudget]
  generalize redis.incr store now key = incremented at hvalue hentry
  rcases incremented with ⟨count, after⟩
  dsimp only at hvalue hentry ⊢
  rw [hshows] at hvalue hentry
  cases hreading : limiter.reading now name with
  | none =>
      rw [hreading] at hvalue hentry halive
      have hone : count = 1 := hvalue
      have hmade : entry after key = some { value := 1, deadline := none } := by
        rw [hentry key, if_pos rfl]
        rfl
      have hseen : seenAt expired entry after now key =
          some { value := 1, deadline := none } := by
        rw [seenAt, hmade]
        rfl
      have hself : entry (redis.pexpire after now key window_ms) key =
          some (counted now window_ms name none).entry := by
        rw [hredis.pexpire_entry, if_pos rfl, hseen]
        simp [counted, Counter.entry, hexact]
      rw [if_pos hone]
      refine ⟨hone, pttl_of_entry hredis hself halive, hself, ?_⟩
      intro other hne
      show entry (redis.pexpire after now key window_ms) other = entry store other
      rw [hredis.pexpire_entry, if_neg hne, hentry other, if_neg hne]
  | some counter =>
      rw [hreading] at hvalue hentry halive
      have hpositive := hcounts counter hreading
      have hcount : count = counter.count + 1 := hvalue
      have hself : entry after key = some (counted now window_ms name (some counter)).entry := by
        rw [hentry key, if_pos rfl]
        rfl
      rw [if_neg (by omega)]
      refine ⟨hcount, pttl_of_entry hredis hself halive, hself, ?_⟩
      intro other hne
      show entry after other = entry store other
      rw [hentry other, if_neg hne]

end Script

end RateLimits
end Pertexo
