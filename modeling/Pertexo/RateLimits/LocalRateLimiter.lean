import Mathlib.Data.List.MinMax
import Pertexo.Library.Keyed
import Pertexo.RateLimits.Decisions

/-!
# The limiter inside a process

## Counters in a map

Counters are kept in the order in which they were first set. A counter past
its window is dropped when it is looked up, and a full map first loses its spent
counters and then the oldest one.
-/

namespace Pertexo
namespace RateLimits

open Library Values

def MAX_COUNTERS : Nat :=
  50000

structure Counter where
  key : ScriptString
  count : Int
  expiresAt : Int
deriving DecidableEq, Repr

/-- The counters, and how many of them the bound on the map has cost. -/
structure LocalRateLimiter where
  counters : Keyed Counter Counter.key
  evictions : Nat

namespace LocalRateLimiter

def empty : LocalRateLimiter :=
  { counters := Keyed.empty, evictions := 0 }

def delete (limiter : LocalRateLimiter) (key : ScriptString) : LocalRateLimiter :=
  { limiter with counters := limiter.counters.filter fun counter => decide (counter.key ≠ key) }

def set (limiter : LocalRateLimiter) (counter : Counter) : LocalRateLimiter :=
  { limiter with counters := limiter.counters.set counter }

def live (limiter : LocalRateLimiter) (key : ScriptString) (now : Int) :
    Option Counter × LocalRateLimiter :=
  match limiter.counters.get? key with
  | none => (none, limiter)
  | some counter =>
      if counter.expiresAt > now then (some counter, limiter)
      else (none, limiter.delete key)

def makeRoom (limiter : LocalRateLimiter) (now : Int) : LocalRateLimiter :=
  if limiter.counters.items.length < MAX_COUNTERS then limiter
  else
    let kept := { limiter with
      counters := limiter.counters.filter fun counter => ! decide (counter.expiresAt ≤ now) }
    if kept.counters.items.length < MAX_COUNTERS then kept
    else
      match kept.counters.items.head? with
      | none => kept
      | some oldest => { kept.delete oldest.key with evictions := kept.evictions + 1 }

/-!
## Check, then count
-/

structure KeyedDimension where
  dimension : RateLimitDimension
  key : ScriptString

structure Limited where
  retryMillis : Int
  dimension : RateLimitDimension
deriving DecidableEq, Repr

def keyed (endpointClass : RateLimitEndpointClass) (dimensions : List RateLimitDimension) :
    List KeyedDimension :=
  dimensions.map fun dimension =>
    { dimension := dimension, key := counterName endpointClass dimension }

def findLimited (now : Int) (limiter : LocalRateLimiter) (limited : Option Limited) :
    List KeyedDimension -> Option Limited × LocalRateLimiter
  | [] => (limited, limiter)
  | entry :: rest =>
      match limiter.live entry.key now with
      | (none, limiter) => findLimited now limiter limited rest
      | (some counter, limiter) =>
          if counter.count < entry.dimension.limit then findLimited now limiter limited rest
          else
            let candidate : Limited :=
              { retryMillis := counter.expiresAt - now, dimension := entry.dimension }
            match limited with
            | none => findLimited now limiter (some candidate) rest
            | some current =>
                if candidate.retryMillis > current.retryMillis then
                  findLimited now limiter (some candidate) rest
                else findLimited now limiter (some current) rest

def count (now windowMillis : Int) (limiter : LocalRateLimiter) (key : ScriptString) :
    Counter × LocalRateLimiter :=
  match limiter.live key now with
  | (none, limiter) =>
      let counter : Counter :=
        { key := key, count := 1, expiresAt := addNumbers now windowMillis }
      (counter, (limiter.makeRoom now).set counter)
  | (some counter, limiter) =>
      let counter := { counter with count := counter.count + 1 }
      (counter, limiter.set counter)

def countAll (now windowMillis : Int) (limiter : LocalRateLimiter)
    (quota : Option RateLimitQuota) :
    List KeyedDimension -> Option RateLimitQuota × LocalRateLimiter
  | [] => (quota, limiter)
  | entry :: rest =>
      let (counter, limiter) := count now windowMillis limiter entry.key
      let tightest : RateLimitQuota :=
        { limit := entry.dimension.limit
          remaining := entry.dimension.limit - counter.count
          resetSeconds := max 1 (ceilSeconds (counter.expiresAt - now)) }
      match quota with
      | none => countAll now windowMillis limiter (some tightest) rest
      | some current =>
          if tightest.remaining < current.remaining then
            countAll now windowMillis limiter (some tightest) rest
          else countAll now windowMillis limiter (some current) rest

def consume (limiter : LocalRateLimiter) (now : Int) (decision : RateLimitDecision) :
    DistributedRateLimitResult × LocalRateLimiter :=
  match findLimited now limiter none (keyed decision.endpointClass decision.dimensions) with
  | (some limited, limiter) =>
      (.refused (ceilSeconds limited.retryMillis) limited.dimension.kind, limiter)
  | (none, limiter) =>
      let (quota, limiter) :=
        countAll now decision.windowMillis limiter none
          (keyed decision.endpointClass decision.dimensions)
      (.allowed quota, limiter)

end LocalRateLimiter

end RateLimits
end Pertexo
