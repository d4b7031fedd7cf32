import Pertexo.Triggers.Deduplication

/-!
# Deduplicated events over whole runs

## What a transaction does to the windows
-/

namespace Pertexo
namespace Triggers

open Library

section

variable {Uuid Hash : Type} [LinearOrder Uuid] [DecidableEq Hash]
variable {policyHash : EventCoordinationPolicy -> Hash}
variable {db loaded db' : CoordinationDatabase Uuid Hash}
variable {input : CoordinateEventInput Uuid} {reads : CoordinateReads Uuid}
variable {row : EventWindowRow Uuid Hash} {result : CoordinateEventResult Uuid}

def CoordinateEventInput.key (policyHash : EventCoordinationPolicy -> Hash)
    (input : CoordinateEventInput Uuid) : Option (EventKey Uuid Hash) :=
  input.prepared.keyHash.map fun keyHash =>
    { workflowId := input.workflowId
      nodeId := input.nodeId
      policyHash := policyHash input.prepared.policy
      keyHash }

def EventWindowRow.window (row : EventWindowRow Uuid Hash) : EventCoordinationWindow :=
  { startedAt := row.windowStartedAt
    used := row.usedCount }

def decisionFor (loaded : CoordinationDatabase Uuid Hash) (input : CoordinateEventInput Uuid)
    (reads : CoordinateReads Uuid) (row : EventWindowRow Uuid Hash) :
    EventCoordinationDecision :=
  decideEventCoordination input.prepared.policy (millis reads.clock) (some row.window)
    (oldestPending loaded row.id).isSome

structure StartsEvent (loaded db' : CoordinationDatabase Uuid Hash)
    (input : CoordinateEventInput Uuid) (reads : CoordinateReads Uuid)
    (row : EventWindowRow Uuid Hash) : Prop where
  action : (decisionFor loaded input reads row).action = .start
  accepted : exists runId duplicate, reads.admission = .accepted runId duplicate
  windows : db'.windows = (chargeEventWindow loaded row.id input.prepared.policy
    (decisionFor loaded input reads row).window).windows
  runs : exists run, db'.runs = loaded.runs ++ [run] ∧ run.key = row.key

structure LeavesWindows (loaded db' : CoordinationDatabase Uuid Hash) : Prop where
  windows : db'.windows = loaded.windows
  runs : db'.runs = loaded.runs

omit [DecidableEq Hash] in
theorem LeavesWindows.record {state : EventState Uuid} {receivedAt : Nat}
    (h : recordCoordinatedEvent loaded input receivedAt state = some db') :
    LeavesWindows loaded db' := by
  rcases recordCoordinatedEvent_eq_some h with ⟨_, heq⟩
  rw [heq]
  exact ⟨rfl, rfl⟩

def CoordinateEventResult.isDeduplicated : CoordinateEventResult Uuid -> Bool
  | .coordinated _ .deduplicated _ _ => true
  | _ => false

omit [DecidableEq Hash] in
theorem LeavesWindows.refuse {receivedAt : Nat} {reason : EventCoordinationReason}
    (h : refuseEvent loaded input receivedAt reason = some (db', result)) :
    LeavesWindows loaded db' ∧ result.isDeduplicated = false := by
  rcases Option.bind_eq_some_iff.mp h with ⟨recorded, hrecord, heq⟩
  cases heq
  exact ⟨LeavesWindows.record hrecord, rfl⟩

omit [DecidableEq Hash] in
theorem coalesceEvent_leaves
    (replaced : Option (CoordinatedEvent Uuid × PendingEvent Uuid)) :
    LeavesWindows loaded (coalesceEvent loaded replaced) := by
  cases replaced with
  | none => exact ⟨rfl, rfl⟩
  | some found => exact ⟨rfl, rfl⟩

omit [DecidableEq Hash] in
theorem LeavesWindows.hold {pending : Option (CoordinatedEvent Uuid × PendingEvent Uuid)}
    {action : EventCoordinationAction} {dueAt : Nat}
    (h : holdEvent loaded input reads row pending action dueAt = some (db', result)) :
    LeavesWindows loaded db' ∧ result.isDeduplicated = false := by
  rw [holdEvent] at h
  dsimp only at h
  split at h
  · exact LeavesWindows.refuse h
  · rcases Option.bind_eq_some_iff.mp h with ⟨recorded, hrecord, heq⟩
    have hcoalesced : LeavesWindows loaded
        (coalesceEvent loaded (replacedEvent input.prepared.policy pending)) :=
      coalesceEvent_leaves _
    have hrecorded := LeavesWindows.record hrecord
    cases heq
    constructor
    · exact ⟨hrecorded.windows.trans hcoalesced.windows, hrecorded.runs.trans hcoalesced.runs⟩
    · split
      · rfl
      · rfl

inductive Receives (loaded db' : CoordinationDatabase Uuid Hash)
    (input : CoordinateEventInput Uuid) (reads : CoordinateReads Uuid)
    (result : CoordinateEventResult Uuid) : Option (EventWindowRow Uuid Hash) -> Prop where
  | leaves {found : Option (EventWindowRow Uuid Hash)} (hleaves : LeavesWindows loaded db')
      (hresult : result.isDeduplicated = false) : Receives loaded db' input reads result found
  | duplicates {row : EventWindowRow Uuid Hash} (hleaves : LeavesWindows loaded db')
      (haction : (decisionFor loaded input reads row).action = .deduplicated) :
      Receives loaded db' input reads result (some row)
  | starts {row : EventWindowRow Uuid Hash} (hstarts : StartsEvent loaded db' input reads row)
      (hresult : result.isDeduplicated = false) : Receives loaded db' input reads result (some row)

omit [DecidableEq Hash] in
theorem startCoordinatedEvent_receives
    (haction : (decisionFor loaded input reads row).action = .start)
    (h : startCoordinatedEvent loaded input reads row (decisionFor loaded input reads row) =
      some (db', result)) : Receives loaded db' input reads result (some row) := by
  rw [startCoordinatedEvent.eq_def] at h
  split at h
  · next runId duplicate hadmission =>
    rcases Option.bind_eq_some_iff.mp h with ⟨recorded, hrecord, heq⟩
    cases heq
    have hleaves := LeavesWindows.record hrecord
    refine Receives.starts ⟨haction, ⟨runId, duplicate, hadmission⟩, hleaves.windows, ?_⟩ rfl
    have hruns : recorded.runs = loaded.runs := hleaves.runs
    exact ⟨_, congrArg (· ++ _) hruns, rfl⟩
  · rcases Option.bind_eq_some_iff.mp h with ⟨recorded, hrecord, heq⟩
    cases heq
    exact Receives.leaves (LeavesWindows.record hrecord) rfl
  · cases h

/-- A committed reception has no key, or loads the window of its key. -/
theorem coordinateEvent_cases
    (hcommit : coordinateEvent policyHash db input reads = some (db', result)) :
    (LeavesWindows db db' ∧ result.isDeduplicated = false) ∨
      exists key loaded found, input.key policyHash = some key ∧
        loadEventWindow db key input.prepared.policy reads.windowId (millis reads.clock) =
          some (loaded, found) ∧ Receives loaded db' input reads result found := by
  rw [Triggers.coordinateEvent.eq_def] at hcommit
  split at hcommit
  · exact Or.inl (LeavesWindows.refuse hcommit)
  · next keyHash hkeyHash =>
    rcases Option.bind_eq_some_iff.mp hcommit with ⟨⟨loaded, found⟩, hload, hdecide⟩
    refine Or.inr ⟨_, loaded, found, ?_, hload, ?_⟩
    · rw [CoordinateEventInput.key, hkeyHash]
      rfl
    cases found with
    | none =>
        have hrefused := LeavesWindows.refuse hdecide
        exact Receives.leaves hrefused.left hrefused.right
    | some row =>
        dsimp only at hdecide
        split at hdecide
        · next _ haction => exact startCoordinatedEvent_receives haction hdecide
        · next _ haction =>
          rcases Option.bind_eq_some_iff.mp hdecide with ⟨recorded, hrecord, heq⟩
          cases heq
          exact Receives.duplicates (LeavesWindows.record hrecord) haction
        · rcases Option.bind_eq_some_iff.mp hdecide with ⟨recorded, hrecord, heq⟩
          cases heq
          exact Receives.leaves (LeavesWindows.record hrecord) rfl
        · have hheld := LeavesWindows.hold hdecide
          exact Receives.leaves hheld.left hheld.right

/-!
## Decisions of a deduplicating policy
-/

variable {source : EventCoordinationKey} {windowSeconds : Bounded 1 604800}

theorem decideEventCoordination_deduplicate_start {now : Nat} {window : EventCoordinationWindow}
    {hasPending : Bool}
    (h : (decideEventCoordination (.deduplicate source windowSeconds) now (some window)
      hasPending).action = .start) :
    (window.startedAt + windowSeconds.val * 1000 ≤ now ∧
      (decideEventCoordination (.deduplicate source windowSeconds) now (some window)
        hasPending).window.startedAt = now) ∨
    (window.used = 0 ∧
      (decideEventCoordination (.deduplicate source windowSeconds) now (some window)
        hasPending).window = window) := by
  simp only [decideEventCoordination, currentWindow] at h ⊢
  split at h
  · next hpassed =>
    rw [if_pos hpassed]
    exact Or.inl ⟨hpassed, rfl⟩
  · next hcurrent =>
    rw [if_neg hcurrent]
    split at h
    · cases h
    · next hunused => exact Or.inr ⟨Nat.eq_zero_of_not_pos hunused, rfl⟩

theorem decideEventCoordination_deduplicate_startedAt {now : Nat}
    {window : EventCoordinationWindow} {hasPending : Bool} :
    (decideEventCoordination (.deduplicate source windowSeconds) now (some window)
      hasPending).window.startedAt = now ∨
    (decideEventCoordination (.deduplicate source windowSeconds) now (some window)
      hasPending).window.startedAt = window.startedAt := by
  simp only [decideEventCoordination, currentWindow]
  split
  · exact Or.inl rfl
  · exact Or.inr rfl

/-- Only a deduplicating policy decides on a duplicate, in a window that was charged. -/
theorem decideEventCoordination_deduplicated {policy : EventCoordinationPolicy} {now : Nat}
    {window : EventCoordinationWindow} {hasPending : Bool}
    (h : (decideEventCoordination policy now (some window) hasPending).action = .deduplicated) :
    exists source windowSeconds, policy = .deduplicate source windowSeconds ∧
      now < window.startedAt + windowSeconds.val * 1000 ∧ 0 < window.used := by
  cases policy with
  | debounce key quietSeconds => cases h
  | throttle key windowSeconds limit onExcess =>
      simp only [decideEventCoordination] at h
      split at h
      · cases h
      · cases h
  | deduplicate key windowSeconds =>
      refine ⟨key, windowSeconds, rfl, ?_⟩
      simp only [decideEventCoordination, currentWindow] at h
      split at h
      · simp at h
      · next hcurrent =>
        split at h
        · next hused => exact ⟨Nat.lt_of_not_le hcurrent, hused⟩
        · cases h

/-!
## Steps
-/

def startsOf (db db' : CoordinationDatabase Uuid Hash) (now : Nat) :
    List (EventStart Uuid Hash) :=
  (db'.runs.drop db.runs.length).map fun run =>
    { run
      readAt := now }

/-- A start of the policy is not charged to an unused window that began earlier
and has not passed: such a window is what a refused admission leaves. -/
def StartsFresh (policyHash : EventCoordinationPolicy -> Hash) (source : EventCoordinationKey)
    (windowSeconds : Bounded 1 604800) (db : CoordinationDatabase Uuid Hash) :
    CoordinationTransaction Uuid -> Prop
  | .coordinate input reads =>
      input.prepared.policy = .deduplicate source windowSeconds ->
      (exists runId duplicate, reads.admission = .accepted runId duplicate) ->
      forall row, row ∈ db.windows -> some row.key = input.key policyHash -> row.usedCount = 0 ->
        row.windowStartedAt = millis reads.clock ∨
          row.windowStartedAt + windowSeconds.val * 1000 ≤ millis reads.clock
  | .release .. => True
  | .rest .. => True
  | .deleteWindow .. => True

omit [LinearOrder Uuid] [DecidableEq Hash] in
theorem startsOf_of_runs_eq {now : Nat} (h : db'.runs = db.runs) : startsOf db db' now = [] := by
  rw [startsOf, h, List.drop_length, List.map_nil]

omit [LinearOrder Uuid] [DecidableEq Hash] in
theorem startsOf_of_runs_concat {now : Nat} {run : CoordinatedRun Uuid Hash}
    (h : db'.runs = db.runs ++ [run]) :
    startsOf db db' now =
      [{ run
         readAt := now }] := by
  rw [startsOf, h, List.drop_left, List.map_singleton]

section

variable {clock : Nat} {fresh : Prop}

omit [DecidableEq Hash] in
theorem LeavesWindows.effect {hash : Hash} {width now : Nat} (h : LeavesWindows db db') :
    Effect hash width now fresh db db' (startsOf db db' now) := by
  rw [startsOf_of_runs_eq h.runs]
  exact Effect.quiet h.windows

/-- Loading the window of a key opens it at most. -/
theorem loadEventWindow_effect (hinjective : Function.Injective policyHash)
    {key : EventKey Uuid Hash} {policy : EventCoordinationPolicy}
    (hkey : key.policyHash = policyHash policy) {windowId : Uuid} {now : Nat}
    {found : Option (EventWindowRow Uuid Hash)}
    (hload : loadEventWindow db key policy windowId now = some (loaded, found)) :
    Effect (policyHash (.deduplicate source windowSeconds)) (windowSeconds.val * 1000) now fresh
      db loaded [] := by
  rcases loadEventWindow_cases hload with ⟨rfl, _⟩ | ⟨row, hrow, rfl, _, rfl⟩
  · exact Effect.quiet rfl
  · refine Effect.opens hrow ?_ rfl
    intro hhash
    rw [hinjective (hkey.symm.trans hhash)]
    rfl

omit [DecidableEq Hash] in
/-- A charged window of the policy allows the start, unless it is an unused one that
an earlier transaction has opened. -/
theorem StartsEvent.allows (hstarts : StartsEvent loaded db' input reads row)
    (hpolicy : input.prepared.policy = .deduplicate source windowSeconds)
    (hunused : row.usedCount = 0 -> row.windowStartedAt = millis reads.clock ∨
      row.windowStartedAt + windowSeconds.val * 1000 ≤ millis reads.clock) :
    AllowsStart (windowSeconds.val * 1000) row (millis reads.clock) ∧
      (decisionFor loaded input reads row).window.startedAt = millis reads.clock := by
  have haction := hstarts.action
  rw [decisionFor, hpolicy] at haction
  rcases decideEventCoordination_deduplicate_start haction with ⟨hpassed, hnow⟩ | ⟨hzero, hsame⟩
  · refine ⟨Or.inl hpassed, ?_⟩
    rw [decisionFor, hpolicy]
    exact hnow
  · rcases hunused hzero with hbegins | hpassed
    · refine ⟨Or.inr ⟨hzero, hbegins⟩, ?_⟩
      rw [decisionFor, hpolicy, hsame]
      exact hbegins
    · refine ⟨Or.inl hpassed, ?_⟩
      rw [decisionFor, hpolicy]
      rw [decideEventCoordination, currentWindow, if_pos]
      exact hpassed

theorem coordinateEvent_effect (h : CoordinationInvariant policyHash db clock)
    (hinjective : Function.Injective policyHash) (hclock : clock ≤ reads.clock)
    (hcommit : coordinateEvent policyHash db input reads = some (db', result)) :
    Effect (policyHash (.deduplicate source windowSeconds)) (windowSeconds.val * 1000)
      (millis reads.clock)
      (StartsFresh policyHash source windowSeconds db (.coordinate input reads)) db db'
      (startsOf db db' (millis reads.clock)) := by
  rcases coordinateEvent_cases hcommit with
    ⟨hleaves, _⟩ | ⟨key, loaded, found, hkey, hload, hreceives⟩
  · exact hleaves.effect
  have hhash : key.policyHash = policyHash input.prepared.policy := by
    rcases Option.map_eq_some_iff.mp hkey with ⟨keyHash, _, hsame⟩
    rw [← hsame]
  rcases (h.tick hclock).loadEventWindow hinjective hhash hload with
    ⟨hinvariant, _, hruns, _, hfound⟩
  have hquiet : LeavesWindows loaded db' -> Effect (policyHash (.deduplicate source windowSeconds))
      (windowSeconds.val * 1000) (millis reads.clock)
      (StartsFresh policyHash source windowSeconds db (.coordinate input reads)) loaded db'
      (startsOf db db' (millis reads.clock)) := by
    intro hleaves
    rw [startsOf_of_runs_eq (hleaves.runs.trans hruns)]
    exact Effect.quiet hleaves.windows
  rw [← List.nil_append (startsOf db db' _)]
  apply Effect.trans (loadEventWindow_effect hinjective hhash hload)
  cases hreceives with
  | leaves hleaves _ => exact hquiet hleaves
  | duplicates hleaves _ => exact hquiet hleaves
  | @starts row hstarts _ =>
      rcases hstarts.runs with ⟨run, hrun, hrunKey⟩
      rcases hfound row rfl with ⟨hrow, hrowKey⟩
      have hpolicy : row.key.policyHash = policyHash (.deduplicate source windowSeconds) ->
          input.prepared.policy = .deduplicate source windowSeconds := by
        intro hsame
        apply hinjective
        rw [← hhash, ← hrowKey, hsame]
      rw [startsOf_of_runs_concat (hrun.trans (congrArg (· ++ _) hruns))]
      refine Effect.charges ⟨hinvariant.windows, hrow, hstarts.windows, hrunKey, rfl⟩ ?_ ?_ ?_
      · intro hsame
        rw [hpolicy hsame]
        rfl
      · intro hsame
        rw [decisionFor, hpolicy hsame]
        exact decideEventCoordination_deduplicate_startedAt
      · intro hfresh hsame
        apply hstarts.allows (hpolicy hsame)
        intro hzero
        rcases loadEventWindow_cases hload with ⟨heq, hold⟩ | ⟨opened, hopened, _, hsome, _⟩
        · apply hfresh (hpolicy hsame) hstarts.accepted row (hold row rfl).left _ hzero
          rw [hkey, hrowKey]
        · apply Or.inl
          rw [Option.some.inj hsome]
          exact hopened.windowStartedAt

/-- A pending event is never one of a deduplicating policy. -/
theorem releaseCoordinatedEvent_effect (h : CoordinationInvariant policyHash db clock)
    (hinjective : Function.Injective policyHash) {id : Uuid} {releaseReads : ReleaseReads Uuid}
    {released : ReleaseResult}
    (hcommit : releaseCoordinatedEvent db id releaseReads = some (db', released)) :
    Effect (policyHash (.deduplicate source windowSeconds)) (windowSeconds.val * 1000)
      (millis releaseReads.clock) fresh db db' (startsOf db db' (millis releaseReads.clock)) := by
  rcases releaseCoordinatedEvent_cases hcommit with hsame | ⟨state, _, hset⟩ | hstarted
  · rw [hsame]
    exact LeavesWindows.effect ⟨rfl, rfl⟩
  · rw [hset]
    exact LeavesWindows.effect ⟨rfl, rfl⟩
  · rcases hstarted with ⟨event, pending, row, runId, hfind, _, hrow, hid, _, heq⟩
    rcases findPendingEvent_eq_some hfind with ⟨hevent, hpending, _⟩
    have hheld := h.events.pending event hevent pending hpending
    have hother : row.key.policyHash ≠ policyHash (.deduplicate source windowSeconds) := by
      intro hhash
      rcases hheld.has_window with ⟨held, hheldRow, hheldId, hheldHash⟩
      have hsameRow := h.windows.eq_of_id hheldRow hrow (hheldId.trans hid.symm)
      have hpolicy := hinjective (hheldHash.symm.trans (hsameRow ▸ hhash))
      have hholds := hheld.holds
      rw [hpolicy] at hholds
      cases hholds
    have hruns : db'.runs = db.runs ++ _ := congrArg CoordinationDatabase.runs heq
    have hwindows : db'.windows = (chargeEventWindow db row.id pending.policy
        (decideEventCoordination pending.policy (millis releaseReads.clock) (some row.window)
          false).window).windows := by
      rw [heq, hid]
      rfl
    rw [startsOf_of_runs_concat hruns]
    refine Effect.charges ⟨h.windows, hrow, hwindows, rfl, rfl⟩ ?_ ?_ ?_
    · exact fun hhash => absurd hhash hother
    · exact fun hhash => absurd hhash hother
    · exact fun _ hhash => absurd hhash hother

omit [DecidableEq Hash] in
theorem restFailedCoordinatedEvent_leaves (id : Uuid) (releaseReads : ReleaseReads Uuid) :
    LeavesWindows db (restFailedCoordinatedEvent db id releaseReads) := by
  rw [restFailedCoordinatedEvent.eq_def]
  split
  · exact ⟨rfl, rfl⟩
  · dsimp only
    split
    · exact ⟨rfl, rfl⟩
    · exact ⟨rfl, rfl⟩

omit [DecidableEq Hash] in
theorem deleteEventWindow_drops (id : Uuid) (reading : Nat) :
    DropsExpired db (deleteEventWindow db id reading) (millis reading) := by
  constructor
  · exact fun row hrow => List.mem_of_mem_filter hrow
  · intro row hrow hgone
    rw [deleteEventWindow, List.mem_filter, not_and] at hgone
    have hdeleted := hgone hrow
    simp only [Bool.not_eq_true', Bool.not_eq_false, Bool.and_eq_true,
      decide_eq_true_eq] at hdeleted
    rw [millis, Nat.le_div_iff_mul_le (Nat.zero_lt_succ _)]
    exact hdeleted.left.right

theorem transact_effect (h : CoordinationInvariant policyHash db clock)
    (hinjective : Function.Injective policyHash) (transaction : CoordinationTransaction Uuid)
    (hclock : clock ≤ transaction.firstReading) :
    Effect (policyHash (.deduplicate source windowSeconds)) (windowSeconds.val * 1000)
      (millis transaction.firstReading)
      (StartsFresh policyHash source windowSeconds db transaction) db
      (transact policyHash db transaction)
      (startsOf db (transact policyHash db transaction) (millis transaction.firstReading)) := by
  cases transaction with
  | coordinate input reads =>
      rw [transact]
      cases hcommit : coordinateEvent policyHash db input reads with
      | none => exact LeavesWindows.effect ⟨rfl, rfl⟩
      | some committed => exact coordinateEvent_effect h hinjective hclock hcommit
  | release id reads =>
      rw [transact]
      cases hcommit : releaseCoordinatedEvent db id reads with
      | none => exact LeavesWindows.effect ⟨rfl, rfl⟩
      | some committed => exact releaseCoordinatedEvent_effect h hinjective hcommit
  | rest id reads => exact (restFailedCoordinatedEvent_leaves id reads).effect
  | deleteWindow id reading =>
      have hruns : (transact policyHash db (.deleteWindow id reading)).runs = db.runs := rfl
      rw [startsOf_of_runs_eq hruns]
      exact Effect.drops (deleteEventWindow_drops id reading)

end

/-!
## Observed runs

A run of transactions with the starts that were seen so far.
-/

structure ObservedSystem (Uuid Hash : Type) where
  system : CoordinationSystem Uuid Hash
  starts : List (EventStart Uuid Hash)

def observe (policyHash : EventCoordinationPolicy -> Hash) (before : ObservedSystem Uuid Hash)
    (transaction : CoordinationTransaction Uuid) : ObservedSystem Uuid Hash :=
  let after := advanceSystem policyHash before.system transaction
  { system := after
    starts := before.starts ++
      startsOf before.system.database after.database (millis transaction.firstReading) }

def ObservedStep (policyHash : EventCoordinationPolicy -> Hash)
    (before : ObservedSystem Uuid Hash) (transaction : CoordinationTransaction Uuid)
    (after : ObservedSystem Uuid Hash) : Prop :=
  before.system.clock ≤ transaction.firstReading ∧
    transaction.firstReading ≤ transaction.lastReading ∧
    after = observe policyHash before transaction

/-- Runs whose steps are allowed by what the database and the transaction are. -/
def ObservedRun (policyHash : EventCoordinationPolicy -> Hash)
    (allowed : CoordinationDatabase Uuid Hash -> CoordinationTransaction Uuid -> Prop) :
    List (CoordinationTransaction Uuid) -> ObservedSystem Uuid Hash -> Prop :=
  Run (fun start => start.system.database = emptyDatabase ∧ start.starts = [])
    (fun before transaction after =>
      ObservedStep policyHash before transaction after ∧
        allowed before.system.database transaction)

variable {allowed : CoordinationDatabase Uuid Hash -> CoordinationTransaction Uuid -> Prop}
variable {transactions : List (CoordinationTransaction Uuid)}
variable {observed : ObservedSystem Uuid Hash}

theorem ObservedRun.coordinationRun (h : ObservedRun policyHash allowed transactions observed) :
    CoordinationRun policyHash transactions observed.system := by
  apply Run.invariant h fun transactions observed =>
    CoordinationRun policyHash transactions observed.system
  · exact fun start hstart => Run.start hstart.left
  · intro inputs before transaction after _ hbefore hstep
    rcases hstep with ⟨⟨hfirst, hlast, hafter⟩, _⟩
    apply Run.step hbefore
    rw [hafter]
    exact ⟨hfirst, hlast, rfl⟩

theorem ObservedRun.knows (h : ObservedRun policyHash allowed transactions observed)
    (hinjective : Function.Injective policyHash) (source : EventCoordinationKey)
    (windowSeconds : Bounded 1 604800) :
    KnowsStarts (policyHash (.deduplicate source windowSeconds)) (windowSeconds.val * 1000)
      observed.system.database observed.starts (millis observed.system.clock) := by
  apply Run.invariant h fun _ observed =>
    KnowsStarts (policyHash (.deduplicate source windowSeconds)) (windowSeconds.val * 1000)
      observed.system.database observed.starts (millis observed.system.clock)
  · intro start hstart
    rw [hstart.left, hstart.right]
    constructor
    · exact fun row hrow => absurd hrow List.not_mem_nil
    · exact fun row hrow => absurd hrow List.not_mem_nil
    · exact fun row hrow => absurd hrow List.not_mem_nil
    · exact fun start hstart => absurd hstart List.not_mem_nil
  · intro inputs before transaction after hrun hbefore hstep
    rcases hstep with ⟨⟨hfirst, hlast, hafter⟩, _⟩
    have hinvariant := (ObservedRun.coordinationRun hrun).invariant hinjective
    have hticked := hbefore.tick (Nat.div_le_div_right (c := 1000) hfirst) rfl
    have hnext := hticked.effect (transact_effect hinvariant hinjective transaction hfirst)
    rw [hafter]
    exact hnext.tick (Nat.div_le_div_right hlast) rfl

theorem ObservedRun.spaces
    (h : ObservedRun policyHash (StartsFresh policyHash source windowSeconds) transactions observed)
    (hinjective : Function.Injective policyHash) :
    SpacesStarts (policyHash (.deduplicate source windowSeconds)) (windowSeconds.val * 1000)
      observed.system.database observed.starts (millis observed.system.clock) := by
  apply Run.invariant h fun _ observed =>
    SpacesStarts (policyHash (.deduplicate source windowSeconds)) (windowSeconds.val * 1000)
      observed.system.database observed.starts (millis observed.system.clock)
  · intro start hstart
    rw [hstart.left, hstart.right]
    constructor
    · exact List.Pairwise.nil
    · exact fun row hrow => absurd hrow List.not_mem_nil
    · exact fun start hstart => absurd hstart List.not_mem_nil
  · intro inputs before transaction after hrun hbefore hstep
    rcases hstep with ⟨⟨hfirst, hlast, hafter⟩, hfresh⟩
    have hinvariant := (ObservedRun.coordinationRun hrun).invariant hinjective
    have hmillis : millis before.system.clock ≤ millis transaction.firstReading :=
      Nat.div_le_div_right hfirst
    have hknows := (ObservedRun.knows hrun hinjective source windowSeconds).tick hmillis
      (rfl : before.system.database.windows = _)
    have hnext := (hbefore.tick hmillis rfl).effect hknows hfresh
      (transact_effect hinvariant hinjective transaction hfirst)
    rw [hafter]
    exact hnext.tick (Nat.div_le_div_right hlast) rfl

/-- The window of an event that is recorded as a duplicate was charged and is current. -/
structure IsDuplicate (policyHash : EventCoordinationPolicy -> Hash)
    (db loaded : CoordinationDatabase Uuid Hash) (input : CoordinateEventInput Uuid)
    (reads : CoordinateReads Uuid) (key : EventKey Uuid Hash) (row : EventWindowRow Uuid Hash)
    (source : EventCoordinationKey) (windowSeconds : Bounded 1 604800) : Prop where
  policy : input.prepared.policy = .deduplicate source windowSeconds
  hasKey : input.key policyHash = some key
  loads : loadEventWindow db key input.prepared.policy reads.windowId (millis reads.clock) =
    some (loaded, some row)
  current : millis reads.clock < row.windowStartedAt + windowSeconds.val * 1000
  used : 0 < row.usedCount

theorem coordinateEvent_deduplicated
    (hcommit : coordinateEvent policyHash db input reads = some (db', result))
    (hresult : result.isDeduplicated = true) :
    exists loaded key row source windowSeconds,
      IsDuplicate policyHash db loaded input reads key row source windowSeconds := by
  rcases coordinateEvent_cases hcommit with
    ⟨_, hother⟩ | ⟨key, loaded, found, hkey, hload, hreceives⟩
  · rw [hother] at hresult
    cases hresult
  cases hreceives with
  | leaves _ hother =>
      rw [hother] at hresult
      cases hresult
  | starts _ hother =>
      rw [hother] at hresult
      cases hresult
  | @duplicates row _ haction =>
      rcases decideEventCoordination_deduplicated haction with
        ⟨source, windowSeconds, hpolicy, hcurrent, hused⟩
      exact ⟨loaded, key, row, source, windowSeconds, hpolicy, hkey, hload, hcurrent, hused⟩

/-- A duplicate is one of a start that is less than a window old. -/
theorem KnowsStarts.duplicates {starts : List (EventStart Uuid Hash)}
    (h : KnowsStarts (policyHash (.deduplicate source windowSeconds)) (windowSeconds.val * 1000)
      db starts (millis reads.clock)) {key : EventKey Uuid Hash}
    (hduplicate : IsDuplicate policyHash db loaded input reads key row source windowSeconds) :
    exists start, start ∈ starts ∧ input.key policyHash = some start.run.key ∧
      start.readAt ≤ millis reads.clock ∧
      millis reads.clock < start.readAt + windowSeconds.val * 1000 := by
  rcases loadEventWindow_cases hduplicate.loads with ⟨_, hold⟩ | ⟨opened, hopened, _, hsome, _⟩
  · rcases hold row rfl with ⟨hrow, hrowKey⟩
    have hhash : row.key.policyHash = policyHash (.deduplicate source windowSeconds) := by
      rcases Option.map_eq_some_iff.mp hduplicate.hasKey with ⟨keyHash, _, hfields⟩
      rw [hrowKey, ← hfields, hduplicate.policy]
    rcases h.charged row hrow hhash hduplicate.used with ⟨start, hstart, hstartKey, hafter⟩
    refine ⟨start, hstart, ?_, h.started start hstart, ?_⟩
    · rw [hduplicate.hasKey, hstartKey, hrowKey]
    · exact hduplicate.current.trans_le (Nat.add_le_add_right hafter _)
  · have hused := hduplicate.used
    rw [Option.some.inj hsome, hopened.usedCount] at hused
    exact absurd hused (Nat.lt_irrefl 0)

/-- In every run that charges no start to an unused window of an earlier
transaction, two starts of a key are at least its window apart. In every run, an
event is recorded as a duplicate only of a start that is less than a window old.
Times are the milliseconds of the readings that decide. -/
theorem deduplicated_starts_spaced (hinjective : Function.Injective policyHash) :
    (forall source windowSeconds transactions (observed : ObservedSystem Uuid Hash),
      ObservedRun policyHash (StartsFresh policyHash source windowSeconds) transactions observed ->
      AreSpaced (policyHash (.deduplicate source windowSeconds)) (windowSeconds.val * 1000)
        observed.starts) ∧
    (forall allowed transactions (observed : ObservedSystem Uuid Hash),
      ObservedRun policyHash allowed transactions observed ->
      forall (input : CoordinateEventInput Uuid) reads after result,
      observed.system.clock ≤ reads.clock ->
      coordinateEvent policyHash observed.system.database input reads = some (after, result) ->
      result.isDeduplicated = true ->
      exists source windowSeconds start,
        input.prepared.policy = .deduplicate source windowSeconds ∧ start ∈ observed.starts ∧
        input.key policyHash = some start.run.key ∧ start.readAt ≤ millis reads.clock ∧
        millis reads.clock < start.readAt + windowSeconds.val * 1000) := by
  constructor
  · intro source windowSeconds transactions observed hrun
    exact (hrun.spaces hinjective).spaced
  · intro allowed transactions observed hrun input reads after result hclock hcommit hresult
    rcases coordinateEvent_deduplicated hcommit hresult with
      ⟨loaded, key, row, source, windowSeconds, hduplicate⟩
    have hknows := (hrun.knows hinjective source windowSeconds).tick
      (Nat.div_le_div_right hclock : millis observed.system.clock ≤ millis reads.clock)
      (rfl : observed.system.database.windows = _)
    rcases hknows.duplicates hduplicate with ⟨start, hstart⟩
    exact ⟨source, windowSeconds, start, hduplicate.policy, hstart⟩

end

/-!
## Runs of given transactions
-/

section

variable {Uuid Hash : Type} [LinearOrder Uuid] [DecidableEq Hash]
variable {policyHash : EventCoordinationPolicy -> Hash}
variable {allowed : CoordinationDatabase Uuid Hash -> CoordinationTransaction Uuid -> Prop}

theorem observe_foldl_system (start : ObservedSystem Uuid Hash)
    (transactions : List (CoordinationTransaction Uuid)) :
    (transactions.foldl (observe policyHash) start).system =
      transactions.foldl (advanceSystem policyHash) start.system := by
  induction transactions generalizing start with
  | nil => rfl
  | cons transaction rest ih => exact ih (observe policyHash start transaction)

theorem observedRun_foldl (start : ObservedSystem Uuid Hash)
    (hdatabase : start.system.database = emptyDatabase) (hstarts : start.starts = [])
    (transactions : List (CoordinationTransaction Uuid))
    (h : (start.system.clock :: readings transactions).Pairwise (· ≤ ·))
    (hallowed : forall index, (hindex : index < transactions.length) ->
      allowed ((transactions.take index).foldl (observe policyHash) start).system.database
        transactions[index]) :
    ObservedRun policyHash allowed transactions
      (transactions.foldl (observe policyHash) start) := by
  induction transactions using List.reverseRecOn with
  | nil => exact Run.start ⟨hdatabase, hstarts⟩
  | append_singleton earlier last ih =>
      have hsplit : start.system.clock :: readings (earlier ++ [last]) =
          (start.system.clock :: readings earlier) ++ [last.firstReading, last.lastReading] := by
        simp [readings]
      rw [hsplit] at h
      rcases List.pairwise_append.mp h with ⟨hearlier, hlast, hbetween⟩
      rw [List.foldl_concat]
      apply Run.step
      · apply ih hearlier
        intro index hindex
        have hpart := hallowed index (by rw [List.length_append]; omega)
        rw [List.take_append_of_le_length (Nat.le_of_lt hindex),
          List.getElem_append_left hindex] at hpart
        exact hpart
      · constructor
        · refine ⟨?_, ?_, rfl⟩
          · rw [observe_foldl_system]
            exact hbetween _ (clock_mem_readings start.system earlier) _ (List.mem_cons_self ..)
          · exact (List.pairwise_cons.mp hlast).left _ (List.mem_singleton_self _)
        · have hpart := hallowed earlier.length (by simp)
          rw [List.take_left, List.getElem_concat_length] at hpart
          · exact hpart
          · rfl

instance (hash : Hash) (width : Nat) (starts : List (EventStart Uuid Hash)) :
    Decidable (AreSpaced hash width starts) :=
  inferInstanceAs (Decidable (starts.Pairwise fun earlier later =>
    earlier.run.key = later.run.key -> earlier.run.key.policyHash = hash ->
      earlier.readAt + width ≤ later.readAt))

end

def minutePolicy : EventCoordinationPolicy :=
  .deduplicate (.runInput "$.customer") ⟨60, by decide⟩

def minuteInput (id : Nat) : CoordinateEventInput Nat :=
  { eventId := id
    workflowId := 100
    nodeId := "webhook"
    endpointId := some 200
    startedBy := none
    versionId := 300
    prepared := { policy := minutePolicy, keyHash := some "customer", inputJson := "1" } }

def minuteReads (clock : Nat) (admission : RunAdmission Nat) : CoordinateReads Nat :=
  { clock
    receivedAt := clock
    windowId := 400
    admission }

def minuteReceives (id clock : Nat) (admission : RunAdmission Nat) : CoordinationTransaction Nat :=
  .coordinate (minuteInput id) (minuteReads clock admission)

def unobserved : ObservedSystem Nat EventCoordinationPolicy :=
  { system := { database := emptyDatabase, clock := 0 }
    starts := [] }

/-- The workflow is still running at 1 s, which opens the window; it is not at 31 s. -/
def refusedTransactions : List (CoordinationTransaction Nat) :=
  [minuteReceives 1 1000000 .alreadyRunning, minuteReceives 2 31000000 (.accepted 502 false),
   minuteReceives 3 61000000 (.accepted 503 false)]

theorem starts_within_window :
    ObservedRun id (fun _ _ => True) refusedTransactions
        (refusedTransactions.foldl (observe id) unobserved) ∧
      ¬ AreSpaced minutePolicy 60000 (refusedTransactions.foldl (observe id) unobserved).starts :=
  ⟨observedRun_foldl _ rfl rfl _ (by decide) fun _ _ => trivial, by decide⟩

def spacedTransactions : List (CoordinationTransaction Nat) :=
  [minuteReceives 1 1000000 (.accepted 501 false), minuteReceives 2 61000000 (.accepted 502 false)]

def spacedSystem : ObservedSystem Nat EventCoordinationPolicy :=
  spacedTransactions.foldl (observe id) unobserved

theorem spacedTransactions_observed :
    ObservedRun id (StartsFresh id (.runInput "$.customer") ⟨60, by decide⟩) spacedTransactions
      spacedSystem := by
  apply observedRun_foldl _ rfl rfl _ (by decide)
  intro index hindex
  match index with
  | 0 => exact fun _ _ row hrow => absurd hrow List.not_mem_nil
  | 1 =>
      intro _ _ row hrow _ hunused
      have hused : forall row, row ∈ (observe id unobserved
          (minuteReceives 1 1000000 (.accepted 501 false))).system.database.windows ->
          row.usedCount ≠ 0 := by
        decide
      exact absurd hunused (hused row hrow)

theorem deduplicated_starts_spaced_sample :
    AreSpaced minutePolicy 60000 spacedSystem.starts ∧
      exists source windowSeconds start, minutePolicy = .deduplicate source windowSeconds ∧
        start ∈ spacedSystem.starts ∧ start.readAt ≤ 90000 ∧
        90000 < start.readAt + windowSeconds.val * 1000 := by
  constructor
  · exact (deduplicated_starts_spaced Function.injective_id).left _ _ _ _
      spacedTransactions_observed
  · have hcommits : (coordinateEvent id spacedSystem.system.database (minuteInput 3)
        (minuteReads 90000000 (.accepted 503 false))).map
        (fun committed => committed.snd.isDeduplicated) = some true := by
      decide
    rcases Option.map_eq_some_iff.mp hcommits with ⟨⟨after, result⟩, hcommit, hresult⟩
    rcases (deduplicated_starts_spaced Function.injective_id).right _ _ _
      spacedTransactions_observed _ _ _ _ (by decide) hcommit hresult with
      ⟨source, windowSeconds, start, hpolicy, hstart, _, hread, hcurrent⟩
    exact ⟨source, windowSeconds, start, hpolicy, hstart, hread, hcurrent⟩

end Triggers
end Pertexo
