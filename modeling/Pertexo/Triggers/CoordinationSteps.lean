import Pertexo.Triggers.CoordinationInvariant

/-!
# Transactions keep the invariant

## Reading the tables
-/

namespace Pertexo
namespace Triggers

open Library

section

variable {Uuid Hash : Type} [LinearOrder Uuid] [DecidableEq Hash]
variable {policyHash : EventCoordinationPolicy -> Hash} {db db' : CoordinationDatabase Uuid Hash}
variable {clock : Nat}

omit [LinearOrder Uuid] in
theorem EventState.pending?_eq_some_iff {state : EventState Uuid} {pending : PendingEvent Uuid} :
    state.pending? = some pending ↔ state = .pending pending := by
  cases state <;> simp [EventState.pending?]

omit [DecidableEq Hash] in
theorem isPendingOf_iff {keyId : Uuid} {event : CoordinatedEvent Uuid} :
    event.isPendingOf keyId = true ↔
      exists pending, event.state = .pending pending ∧ pending.keyId = keyId := by
  rw [CoordinatedEvent.isPendingOf]
  cases hstate : event.state with
  | pending pending => simp [EventState.pending?]
  | _ => simp [EventState.pending?]

omit [DecidableEq Hash] in
theorem mem_pendingsOf {keyId : Uuid} {found : CoordinatedEvent Uuid × PendingEvent Uuid} :
    found ∈ pendingsOf db keyId ↔
      found.fst ∈ db.events ∧ found.fst.state = .pending found.snd ∧ found.snd.keyId = keyId := by
  rw [pendingsOf, List.mem_filterMap]
  constructor
  · intro h
    rcases h with ⟨event, hmem, hfound⟩
    cases hpending : event.state.pending? with
    | none => simp [hpending] at hfound
    | some pending =>
        simp only [hpending, Option.ite_none_right_eq_some, Option.some.injEq] at hfound
        rw [← hfound.right]
        exact ⟨hmem, EventState.pending?_eq_some_iff.mp hpending, hfound.left⟩
  · intro h
    refine ⟨found.fst, h.left, ?_⟩
    simp [h.right.left, h.right.right, EventState.pending?]

omit [DecidableEq Hash] in
theorem oldestPending_eq_none {keyId : Uuid} (h : oldestPending db keyId = none)
    {event : CoordinatedEvent Uuid} (hmem : event ∈ db.events) {pending : PendingEvent Uuid}
    (hpending : event.state = .pending pending) : pending.keyId ≠ keyId := by
  intro hkey
  have hfound : (event, pending) ∈ pendingsOf db keyId :=
    mem_pendingsOf.mpr ⟨hmem, hpending, hkey⟩
  have hsorted := (perm_sortWith (fun left right => comparePositions left.fst right.fst)
    (pendingsOf db keyId)).mem_iff.mpr hfound
  rw [List.head?_eq_none_iff.mp h] at hsorted
  exact List.not_mem_nil hsorted

omit [DecidableEq Hash] in
theorem findPendingEvent_eq_some {id : Uuid} {event : CoordinatedEvent Uuid}
    {pending : PendingEvent Uuid} (h : findPendingEvent db id = some (event, pending)) :
    event ∈ db.events ∧ event.state = .pending pending ∧ event.id = id := by
  rcases List.exists_of_findSome?_eq_some h with ⟨found, hmem, hfound⟩
  cases hpending : found.state.pending? with
  | none => simp [hpending] at hfound
  | some held =>
      simp only [hpending, Option.ite_none_right_eq_some, Option.some.injEq,
        Prod.mk.injEq] at hfound
      rw [← hfound.right.left, ← hfound.right.right]
      exact ⟨hmem, EventState.pending?_eq_some_iff.mp hpending, hfound.left⟩

omit [DecidableEq Hash] in
theorem recordCoordinatedEvent_eq_some {input : CoordinateEventInput Uuid} {receivedAt : Nat}
    {state : EventState Uuid} (h : recordCoordinatedEvent db input receivedAt state = some db') :
    (forall other, other ∈ db.events -> other.id ≠ input.eventId) ∧
      db' = { db with events := db.events ++ [input.event receivedAt state] } := by
  rw [recordCoordinatedEvent] at h
  split at h
  · cases h
  · next hfree =>
    constructor
    · intro other hmem hid
      apply hfree
      apply List.any_eq_true.mpr
      exact ⟨other, hmem, by simp [hid]⟩
    · exact (Option.some.inj h).symm

structure IsFreshRow (db : CoordinationDatabase Uuid Hash) (row : EventWindowRow Uuid Hash)
    (now seconds : Nat) : Prop where
  noId : forall other, other ∈ db.windows -> other.id ≠ row.id
  noKey : forall other, other ∈ db.windows -> other.key ≠ row.key
  windowStartedAt : row.windowStartedAt = now
  usedCount : row.usedCount = 0
  expiresAt : row.expiresAt = now + seconds * 1000

theorem loadEventWindow_cases {key : EventKey Uuid Hash} {policy : EventCoordinationPolicy}
    {windowId : Uuid} {now : Nat} {row : Option (EventWindowRow Uuid Hash)}
    (hload : loadEventWindow db key policy windowId now = some (db', row)) :
    (db' = db ∧ forall found, row = some found -> found ∈ db.windows ∧ found.key = key) ∨
      exists fresh, IsFreshRow db fresh now policy.seconds ∧ fresh.key = key ∧
        row = some fresh ∧ db' = { db with windows := db.windows ++ [fresh] } := by
  rw [Triggers.loadEventWindow] at hload
  cases hfind : db.windows.find? fun row => decide (row.key = key) with
  | some found =>
      have hfound : found ∈ db.windows ∧ found.key = key :=
        ⟨List.mem_of_find?_eq_some hfind, by simpa using List.find?_some hfind⟩
      simp only [hfind] at hload
      split at hload
      · cases hload
        exact Or.inl ⟨rfl, fun loaded hloaded => Option.some.inj hloaded ▸ hfound⟩
      · split at hload
        · cases hload
          exact Or.inl ⟨rfl, fun loaded hloaded => absurd hloaded.symm (Option.some_ne_none loaded)⟩
        · cases hload
          exact Or.inl ⟨rfl, fun loaded hloaded => Option.some.inj hloaded ▸ hfound⟩
  | none =>
      simp only [hfind] at hload
      split at hload
      · cases hload
        exact Or.inl ⟨rfl, fun loaded hloaded => absurd hloaded.symm (Option.some_ne_none loaded)⟩
      · split at hload
        · cases hload
        · next hfree =>
          cases hload
          refine Or.inr ⟨_, ⟨?_, ?_, rfl, rfl, rfl⟩, rfl, rfl, rfl⟩
          · intro other hmem hid
            exact hfree (List.any_eq_true.mpr ⟨other, hmem, decide_eq_true hid⟩)
          · intro other hmem hother
            exact List.find?_eq_none.mp hfind other hmem (decide_eq_true hother)

theorem CoordinationInvariant.loadEventWindow (h : CoordinationInvariant policyHash db clock)
    (hinjective : Function.Injective policyHash) {key : EventKey Uuid Hash}
    {policy : EventCoordinationPolicy} {windowId : Uuid} {row : Option (EventWindowRow Uuid Hash)}
    (hkey : key.policyHash = policyHash policy)
    (hload : loadEventWindow db key policy windowId (millis clock) = some (db', row)) :
    CoordinationInvariant policyHash db' clock ∧ db'.events = db.events ∧ db'.runs = db.runs ∧
      (forall old, old ∈ db.windows -> old ∈ db'.windows) ∧
      (forall found, row = some found -> found ∈ db'.windows ∧ found.key = key) := by
  rcases loadEventWindow_cases hload with ⟨rfl, hfound⟩ | ⟨fresh, hfresh, rfl, rfl, rfl⟩
  · exact ⟨h, rfl, rfl, fun _ hmem => hmem, hfound⟩
  · refine ⟨?_, rfl, rfl, fun old hold => List.mem_append_left _ hold, ?_⟩
    · exact h.insertWindow hinjective hfresh.noId hfresh.noKey hkey hfresh.windowStartedAt
        hfresh.usedCount (hfresh.windowStartedAt.symm ▸ hfresh.expiresAt)
    · intro loaded hloaded
      rw [← Option.some.inj hloaded]
      exact ⟨List.mem_append_right _ (List.mem_singleton_self _), rfl⟩

/-!
## What a committed transaction does
-/

def EventsKept (before after : CoordinationDatabase Uuid Hash) : Prop :=
  forall event, event ∈ before.events -> exists kept, kept ∈ after.events ∧ kept.id = event.id ∧
    (event.state.isPending = false -> kept = event)

/-- A run is started only when no older event of its key is pending. -/
def StartsOldest (before after : CoordinationDatabase Uuid Hash) : Prop :=
  forall run, run ∈ after.runs -> run ∉ before.runs -> forall event, event ∈ before.events ->
    HeldFor before event run.key -> event.id ≠ run.eventId -> run.position < event.position

structure Commits (policyHash : EventCoordinationPolicy -> Hash)
    (before after : CoordinationDatabase Uuid Hash) (clock : Nat) : Prop where
  invariant : CoordinationInvariant policyHash after clock
  kept : EventsKept before after
  oldest : StartsOldest before after

omit [LinearOrder Uuid] [DecidableEq Hash] in
theorem eventsKept_of_append {added : List (CoordinatedEvent Uuid)}
    (h : db'.events = db.events ++ added) : EventsKept db db' :=
  fun event hmem => ⟨event, h ▸ List.mem_append_left _ hmem, rfl, fun _ => rfl⟩

omit [DecidableEq Hash] in
theorem eventsKept_setPendingState (id : Uuid) (state : PendingEvent Uuid -> EventState Uuid) :
    EventsKept db (setPendingState db id state) := by
  intro event hmem
  refine ⟨_, List.mem_map.mpr ⟨event, hmem, rfl⟩, ?_, ?_⟩
  · split
    · rfl
    · split
      · rfl
      · rfl
  · intro hended
    rw [EventState.isPending, Option.isSome_eq_false_iff, Option.isNone_iff_eq_none] at hended
    rw [hended]

omit [LinearOrder Uuid] [DecidableEq Hash] in
theorem EventsKept.trans {middle : CoordinationDatabase Uuid Hash} (h : EventsKept db middle)
    (hnext : EventsKept middle db') : EventsKept db db' := by
  intro event hmem
  rcases h event hmem with ⟨kept, hkept, hid, hsame⟩
  rcases hnext kept hkept with ⟨last, hlast, hlastId, hlastSame⟩
  refine ⟨last, hlast, hlastId.trans hid, fun hended => ?_⟩
  have heq := hsame hended
  rw [← heq] at hended
  exact (hlastSame hended).trans heq

omit [DecidableEq Hash] in
theorem startsOldest_of_runs_eq (h : db'.runs = db.runs) : StartsOldest db db' :=
  fun _ hmem hnew => absurd (h ▸ hmem) hnew

theorem Commits.of_runs_eq (hinvariant : CoordinationInvariant policyHash db' clock)
    (hkept : EventsKept db db') (hruns : db'.runs = db.runs) : Commits policyHash db db' clock :=
  { invariant := hinvariant
    kept := hkept
    oldest := startsOldest_of_runs_eq hruns }

theorem CoordinationInvariant.record (h : CoordinationInvariant policyHash db clock)
    {input : CoordinateEventInput Uuid} {receivedAt : Nat} {state : EventState Uuid}
    (hle : clock ≤ receivedAt)
    (hrecord : recordCoordinatedEvent db input receivedAt state = some db')
    (hpending : forall pending, state = .pending pending ->
      PendingRow policyHash db.windows pending) :
    CoordinationInvariant policyHash db' receivedAt := by
  rcases recordCoordinatedEvent_eq_some hrecord with ⟨hfree, heq⟩
  rw [heq]
  exact (h.tick hle).insertEvent hfree rfl hpending

theorem CoordinationInvariant.allowed (h : CoordinationInvariant policyHash db clock)
    {row : EventWindowRow Uuid Hash} {policy : EventCoordinationPolicy} {now : Nat}
    {hasPending : Bool} (hrow : row ∈ db.windows)
    (hhash : row.key.policyHash = policyHash policy) {decision : EventCoordinationDecision}
    (hdecision : decision = decideEventCoordination policy now
      (some { startedAt := row.windowStartedAt, used := row.usedCount }) hasPending)
    (haction : forall key windowSeconds limit onExcess,
      policy = .throttle key windowSeconds limit onExcess -> decision.action = .start) :
    forall key windowSeconds limit onExcess,
      policy = .throttle key windowSeconds limit onExcess ->
      CounterOf limit.val db.charges row.key decision.window.startedAt decision.window.used ∧
        decision.window.used < limit.val := by
  intro key windowSeconds limit onExcess hpolicy
  have hstart := haction key windowSeconds limit onExcess hpolicy
  rw [hdecision, hpolicy] at hstart
  have hspec := decideEventCoordination_throttle_start hstart
  rw [hdecision, hpolicy, hspec.left]
  constructor
  · apply counterOf_currentWindow
    · exact ((h.throttled key windowSeconds limit onExcess).rows row hrow
        (hpolicy ▸ hhash)).counter
    · exact Nat.mul_pos windowSeconds.property.left (Nat.zero_lt_succ _)
  · exact hspec.right.left

end

end Triggers
end Pertexo
