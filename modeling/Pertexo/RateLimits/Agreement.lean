import Pertexo.RateLimits.RedisScript

/-!
# Agreement of the two limiters

## Mirrored counters

The limiter and the store mirror each other under a name and its key: they hold the
same counter, or nothing, or the limiter has already forgotten a spent counter.
-/

namespace Pertexo
namespace RateLimits

open Library Values LocalRateLimiter

inductive Mirrors (now : Int) : Option Counter -> Option RedisEntry -> Prop where
  | absent : Mirrors now none none
  | kept {counter : Counter} (h : 1 ≤ counter.count) :
      Mirrors now (some counter) (some counter.entry)
  | spent {value deadline : Int} (h : deadline ≤ now) :
      Mirrors now none (some { value := value, deadline := some deadline })

theorem Mirrors.later {now later : Int} {held : Option Counter} {found : Option RedisEntry}
    (h : Mirrors now held found) (hlater : now ≤ later) : Mirrors later held found := by
  cases h with
  | absent => exact Mirrors.absent
  | kept hcount => exact Mirrors.kept hcount
  | spent hdeadline => exact Mirrors.spent (Int.le_trans hdeadline hlater)

theorem Mirrors.forget {now : Int} {before after : LocalRateLimiter} {key : ScriptString}
    {found : Option RedisEntry} (h : Mirrors now (before.counters.get? key) found)
    (hforgets : ForgetsAt now before after key) :
    Mirrors now (after.counters.get? key) found := by
  cases hforgets with
  | inl hsame =>
      rw [hsame]
      exact h
  | inr hgone =>
      rw [hgone.left]
      generalize hbefore : before.counters.get? key = held at h
      cases h with
      | absent => exact Mirrors.absent
      | kept _ => exact Mirrors.spent (hgone.right _ hbefore)
      | spent hdeadline => exact Mirrors.spent hdeadline

/-- The store regards a timeout of a key as over exactly when it has been reached. -/
def TimesOut {Store : Type} (expired : Int -> Int -> Bool)
    (entry : Store -> String -> Option RedisEntry) (store : Store) (now : Int)
    (key : String) : Prop :=
  forall found deadline, entry store key = some found -> found.deadline = some deadline ->
    (expired deadline now = true ↔ deadline ≤ now)

section Counters

variable {Store : Type} {redis : RedisCommands Store} {expired : Int -> Int -> Bool}
    {entry : Store -> String -> Option RedisEntry} {sha256 : Bytes -> String}
    {endpointClass : RateLimitEndpointClass} {now window_ms : Int} {store : Store}
    {limiter : LocalRateLimiter}

theorem shows_of_mirrors {name : ScriptString} {key : String}
    (h : Mirrors now (limiter.counters.get? name) (entry store key))
    (htimes : TimesOut expired entry store now key) :
    Shows expired entry store limiter now key name := by
  rw [Shows, seenAt, reading]
  generalize limiter.counters.get? name = held at h
  generalize hfound : entry store key = found at h
  cases h with
  | absent => rfl
  | @kept counter _ =>
      have hiff := htimes _ _ hfound rfl
      by_cases halive : now < counter.expiresAt
      · have hheld : Option.filter (fun counter => decide (now < counter.expiresAt))
            (some counter) = some counter := Option.filter_some_pos (by simpa using halive)
        rw [hheld]
        apply Option.filter_some_pos
        have hnot : ¬ counter.expiresAt ≤ now := by omega
        simpa [RedisEntry.isExpired, Counter.entry, hnot] using hiff
      · have hheld : Option.filter (fun counter => decide (now < counter.expiresAt))
            (some counter) = none := Option.filter_some_neg (by simpa using halive)
        rw [hheld]
        apply Option.filter_some_neg
        have hle : counter.expiresAt ≤ now := by omega
        simpa [RedisEntry.isExpired, Counter.entry] using hiff.mpr hle
  | @spent value deadline hdeadline =>
      have hiff := htimes _ _ hfound rfl
      apply Option.filter_some_neg
      simpa [RedisEntry.isExpired] using hiff.mpr hdeadline

theorem one_le_of_mirrors {name : ScriptString} {found : Option RedisEntry}
    (h : Mirrors now (limiter.counters.get? name) found) {counter : Counter}
    (hreading : limiter.reading now name = some counter) : 1 ≤ counter.count := by
  rw [reading, Option.filter_eq_some_iff] at hreading
  rw [hreading.left] at h
  cases h with
  | kept hcount => exact hcount

/-!
## One count on both sides
-/

/-- Names and keys tell the same counters apart. -/
def KeysAgree (sha256 : Bytes -> String)
    (named : Set (RateLimitEndpointClass × RateLimitDimension)) : Prop :=
  forall counter, counter ∈ named -> forall other, other ∈ named ->
    (counterName counter.1 counter.2 = counterName other.1 other.2 ↔
      counterKey sha256 counter.1 counter.2 = counterKey sha256 other.1 other.2)

def MirrorsAll (entry : Store -> String -> Option RedisEntry) (sha256 : Bytes -> String)
    (named : Set (RateLimitEndpointClass × RateLimitDimension)) (now : Int)
    (limiter : LocalRateLimiter) (store : Store) : Prop :=
  forall counter, counter ∈ named ->
    Mirrors now (limiter.counters.get? (counterName counter.1 counter.2))
      (entry store (counterKey sha256 counter.1 counter.2))

variable {named : Set (RateLimitEndpointClass × RateLimitDimension)}

theorem mirrorsAll_count (hkeys : KeysAgree sha256 named)
    (hmirrors : MirrorsAll entry sha256 named now limiter store)
    {dimension : RateLimitDimension} (hnamed : (endpointClass, dimension) ∈ named)
    {after : LocalRateLimiter} {result : Int × Store}
    (hcount : CountSpec now window_ms limiter after (counterName endpointClass dimension))
    (hevictions : after.evictions = limiter.evictions)
    (hincrement : IncrementSpec redis entry now store
      (counterKey sha256 endpointClass dimension)
      (counted now window_ms (counterName endpointClass dimension)
        (limiter.reading now (counterName endpointClass dimension))) result)
    (hcounts : forall counter,
      limiter.reading now (counterName endpointClass dimension) = some counter ->
        1 ≤ counter.count) :
    MirrorsAll entry sha256 named now after result.2 := by
  intro other hother
  have hsame := hkeys other hother _ hnamed
  dsimp only at hsame
  by_cases hname : counterName other.1 other.2 = counterName endpointClass dimension
  · rw [hname, hsame.mp hname, hcount.self, hincrement.self]
    apply Mirrors.kept
    cases hreading : limiter.reading now (counterName endpointClass dimension) with
    | none => exact Int.le_refl 1
    | some counter =>
        have hpositive := hcounts counter hreading
        show 1 ≤ counter.count + 1
        omega
  · have hkey : counterKey sha256 other.1 other.2 ≠ counterKey sha256 endpointClass dimension :=
      fun heq => hname (hsame.mpr heq)
    rw [hincrement.other _ hkey]
    exact (hmirrors other hother).forget (hcount.other hevictions _ hname)

theorem timesOut_increment (hredis : KeepsCounters redis expired entry) {key other : String}
    {counter : Counter} {result : Int × Store}
    (hincrement : IncrementSpec redis entry now store key counter result)
    (halive : now < counter.expiresAt) (htimes : TimesOut expired entry store now other) :
    TimesOut expired entry result.2 now other := by
  intro found deadline hfound hdeadline
  by_cases hkey : other = key
  · rw [hkey, hincrement.self] at hfound
    cases hfound
    cases hdeadline
    rw [hredis.kept halive]
    constructor
    · intro h
      cases h
    · intro h
      omega
  · rw [hincrement.other _ hkey] at hfound
    exact htimes found deadline hfound hdeadline

/-!
## All counts of an admitted request
-/

/-- The quota the limiter answers is the one the client reads from the script's. -/
def quotaOf (quota : ScriptQuota) : RateLimitQuota :=
  { limit := quota.tightest
    remaining := quota.remaining
    resetSeconds := max 1 (ceilSeconds quota.reset_ms) }

def tighter (quota : Option RateLimitQuota) (candidate : RateLimitQuota) : RateLimitQuota :=
  match quota with
  | none => candidate
  | some current => if candidate.remaining < current.remaining then candidate else current

def tighterBudget (quota : Option ScriptQuota) (candidate : ScriptQuota) : ScriptQuota :=
  match quota with
  | none => candidate
  | some current => if candidate.remaining < current.remaining then candidate else current

theorem quotaOf_tighterBudget (quota : Option ScriptQuota) (candidate : ScriptQuota) :
    quotaOf (tighterBudget quota candidate) = tighter (quota.map quotaOf) (quotaOf candidate) := by
  cases quota with
  | none => rfl
  | some current =>
      dsimp only [tighterBudget, tighter, Option.map_some, quotaOf]
      split <;> rfl

theorem countAll_cons (head : KeyedDimension) (rest : List KeyedDimension)
    (limiter : LocalRateLimiter) (quota : Option RateLimitQuota) :
    countAll now window_ms limiter quota (head :: rest) =
      countAll now window_ms (count now window_ms limiter head.key).2
        (some (tighter quota
          { limit := head.dimension.limit
            remaining := head.dimension.limit - (count now window_ms limiter head.key).1.count
            resetSeconds :=
              max 1 (ceilSeconds ((count now window_ms limiter head.key).1.expiresAt - now)) }))
        rest := by
  rw [countAll]
  cases quota with
  | none => rfl
  | some current =>
      dsimp only [tighter]
      split <;> rfl

theorem incrementBudgets_cons (key : String) (limit : Int) (rest : List (String × Int))
    (quota : Option ScriptQuota) :
    incrementBudgets redis window_ms now store quota ((key, limit) :: rest) =
      incrementBudgets redis window_ms now (incrementBudget redis window_ms now store key).2
        (some (tighterBudget quota
          { remaining := limit - (incrementBudget redis window_ms now store key).1
            tightest := limit
            reset_ms :=
              redis.pttl (incrementBudget redis window_ms now store key).2 now key }))
        rest := by
  rw [incrementBudgets]
  cases quota with
  | none => rfl
  | some current =>
      dsimp only [tighterBudget]
      split <;> rfl

theorem countAll_evictions (entries : List KeyedDimension) (limiter : LocalRateLimiter)
    (quota : Option RateLimitQuota) :
    limiter.evictions ≤ (countAll now window_ms limiter quota entries).2.evictions := by
  induction entries generalizing limiter quota with
  | nil => exact Nat.le_refl _
  | cons head rest ih =>
      rw [countAll_cons]
      exact Nat.le_trans (count_spec now window_ms limiter head.key).right.evictions (ih _ _)

structure CountsSpec (entry : Store -> String -> Option RedisEntry)
    (sha256 : Bytes -> String) (endpointClass : RateLimitEndpointClass)
    (now window_ms : Int) (dimensions : List RateLimitDimension)
    (before after : LocalRateLimiter) (store later : Store) : Prop where
  named : forall dimension, dimension ∈ dimensions ->
    after.counters.get? (counterName endpointClass dimension) =
        some (counted now window_ms (counterName endpointClass dimension)
          (before.reading now (counterName endpointClass dimension))) ∧
      entry later (counterKey sha256 endpointClass dimension) =
        some (counted now window_ms (counterName endpointClass dimension)
          (before.reading now (counterName endpointClass dimension))).entry
  otherName : forall name, name ∉ dimensions.map (counterName endpointClass) ->
    ForgetsAt now before after name
  otherKey : forall key, key ∉ dimensions.map (counterKey sha256 endpointClass) ->
    entry later key = entry store key

theorem CountsSpec.cons (hkeys : KeysAgree sha256 named) {dimension : RateLimitDimension}
    {rest : List RateLimitDimension} {middle after : LocalRateLimiter} {result : Int × Store}
    {later : Store} (hdimension : (endpointClass, dimension) ∈ named)
    (hnamed : forall other, other ∈ rest -> (endpointClass, other) ∈ named)
    (hfresh : counterName endpointClass dimension ∉ rest.map (counterName endpointClass))
    (halive : now < (counted now window_ms (counterName endpointClass dimension)
      (limiter.reading now (counterName endpointClass dimension))).expiresAt)
    (hevictions : middle.evictions = limiter.evictions)
    (hcount : CountSpec now window_ms limiter middle (counterName endpointClass dimension))
    (hincrement : IncrementSpec redis entry now store
      (counterKey sha256 endpointClass dimension)
      (counted now window_ms (counterName endpointClass dimension)
        (limiter.reading now (counterName endpointClass dimension))) result)
    (hspec : CountsSpec entry sha256 endpointClass now window_ms rest middle after result.2
      later) :
    CountsSpec entry sha256 endpointClass now window_ms (dimension :: rest) limiter after store
      later := by
  constructor
  · intro other hother
    rcases List.mem_cons.mp hother with rfl | hother
    · have hforgets := hspec.otherName _ hfresh
      constructor
      · cases hforgets with
        | inl hsame => rw [hsame, hcount.self]
        | inr hgone =>
            have hspent := hgone.right _ hcount.self
            omega
      · rw [hspec.otherKey, hincrement.self]
        intro hkey
        rcases List.mem_map.mp hkey with ⟨twin, htwin, heq⟩
        have hname := (hkeys _ (hnamed twin htwin) _ hdimension).mpr heq
        exact hfresh (List.mem_map.mpr ⟨twin, htwin, hname⟩)
    · have hne : counterName endpointClass other ≠ counterName endpointClass dimension :=
        fun heq => hfresh (List.mem_map.mpr ⟨other, hother, heq⟩)
      have hreading := (hcount.other hevictions _ hne).reading_eq (Int.le_refl now)
      rw [← hreading]
      exact hspec.named other hother
  · intro name hname
    rw [List.map_cons, List.mem_cons, not_or] at hname
    exact (hcount.other hevictions name hname.left).trans (hspec.otherName name hname.right)
  · intro key hkey
    rw [List.map_cons, List.mem_cons, not_or] at hkey
    rw [hspec.otherKey key hkey.right, hincrement.other key hkey.left]

theorem countAll_spec (hredis : KeepsCounters redis expired entry) (hwindow : 0 < window_ms)
    (hexact : addNumbers now window_ms = now + window_ms) (hkeys : KeysAgree sha256 named)
    (dimensions : List RateLimitDimension) (limiter : LocalRateLimiter) (store : Store)
    (quota : Option ScriptQuota)
    (hnodup : (dimensions.map (counterName endpointClass)).Nodup)
    (hnamed : forall dimension, dimension ∈ dimensions -> (endpointClass, dimension) ∈ named)
    (hmirrors : MirrorsAll entry sha256 named now limiter store)
    (htimes : forall dimension, dimension ∈ dimensions ->
      TimesOut expired entry store now (counterKey sha256 endpointClass dimension))
    (hevictions : (countAll now window_ms limiter (quota.map quotaOf)
      (keyed endpointClass dimensions)).2.evictions = limiter.evictions) :
    let left := countAll now window_ms limiter (quota.map quotaOf)
      (keyed endpointClass dimensions)
    let right := incrementBudgets redis window_ms now store quota
      (budgets sha256 endpointClass dimensions)
    left.1 = right.1.map quotaOf ∧
      MirrorsAll entry sha256 named now left.2 right.2 ∧
      CountsSpec entry sha256 endpointClass now window_ms dimensions limiter left.2 store
        right.2 := by
  induction dimensions generalizing limiter store quota with
  | nil =>
      refine ⟨rfl, hmirrors, ?_, ?_, ?_⟩
      · intro dimension hdimension
        cases hdimension
      · intro name _
        exact Or.inl rfl
      · intro key _
        rfl
  | cons dimension rest ih =>
      have hdimension := hnamed dimension List.mem_cons_self
      have hmirror := hmirrors _ hdimension
      have htime := htimes dimension List.mem_cons_self
      have hcounts : forall counter,
          limiter.reading now (counterName endpointClass dimension) = some counter ->
            1 ≤ counter.count := fun counter hreading => one_le_of_mirrors hmirror hreading
      have hcount := count_spec now window_ms limiter (counterName endpointClass dimension)
      have hincrement := incrementBudget_spec hredis hwindow hexact
        (shows_of_mirrors hmirror htime) hcounts
      rw [keyed, List.map_cons, countAll_cons] at hevictions
      dsimp only
      rw [keyed, List.map_cons, countAll_cons, budgets, List.map_cons, incrementBudgets_cons]
      dsimp only at hevictions ⊢
      generalize count now window_ms limiter (counterName endpointClass dimension) = left
        at hcount hevictions ⊢
      generalize incrementBudget redis window_ms now store
        (counterKey sha256 endpointClass dimension) = right at hincrement ⊢
      rcases hcount with ⟨hcounter, hcount⟩
      have hquota : some (tighter (quota.map quotaOf)
          { limit := dimension.limit
            remaining := dimension.limit - left.1.count
            resetSeconds := max 1 (ceilSeconds (left.1.expiresAt - now)) }) =
          (some (tighterBudget quota
            { remaining := dimension.limit - right.1
              tightest := dimension.limit
              reset_ms := redis.pttl right.2 now
                (counterKey sha256 endpointClass dimension) })).map quotaOf := by
        rw [Option.map_some, quotaOf_tighterBudget, hincrement.pttl, hincrement.count, hcounter]
        rfl
      rw [hquota] at hevictions ⊢
      have hsame : left.2.evictions = limiter.evictions := by
        apply Nat.le_antisymm
        · rw [← hevictions]
          exact countAll_evictions _ _ _
        · exact hcount.evictions
      have halive := @alive_counted now window_ms limiter
        (counterName endpointClass dimension) hwindow hexact
      rcases List.nodup_cons.mp hnodup with ⟨hfresh, hnodup'⟩
      have hnamed' : forall other, other ∈ rest -> (endpointClass, other) ∈ named :=
        fun other hother => hnamed other (List.mem_cons_of_mem _ hother)
      have hih := ih left.2 right.2 _ hnodup'
        hnamed'
        (mirrorsAll_count hkeys hmirrors hdimension hcount hsame hincrement hcounts)
        (fun other hother => timesOut_increment hredis hincrement halive
          (htimes other (List.mem_cons_of_mem _ hother)))
        (hevictions.trans hsame.symm)
      rcases hih with ⟨hquotas, hmirrors', hspec⟩
      refine ⟨hquotas, hmirrors', hspec.cons hkeys hdimension hnamed' hfresh halive hsame hcount
        hincrement⟩

end Counters

end RateLimits
end Pertexo
