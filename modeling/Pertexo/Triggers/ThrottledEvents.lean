import Pertexo.Triggers.CoordinationRuns

/-!
# Throttled events over whole runs

## Transactions in any order

Events are received, pending events are released or rest after a failed release,
and expired windows are deleted, one transaction at a time. The clock of the
database never goes back.
-/

namespace Pertexo
namespace Triggers

open Library

section

variable {Uuid Hash : Type}

inductive CoordinationTransaction (Uuid : Type) where
  | coordinate (input : CoordinateEventInput Uuid) (reads : CoordinateReads Uuid)
  | release (id : Uuid) (reads : ReleaseReads Uuid)
  | rest (id : Uuid) (reads : ReleaseReads Uuid)
  | deleteWindow (id : Uuid) (clock : Nat)

def CoordinationTransaction.firstReading : CoordinationTransaction Uuid -> Nat
  | .coordinate _ reads => reads.clock
  | .release _ reads => reads.clock
  | .rest _ reads => reads.clock
  | .deleteWindow _ clock => clock

def CoordinationTransaction.lastReading : CoordinationTransaction Uuid -> Nat
  | .coordinate _ reads => reads.receivedAt
  | .release _ reads => reads.clock
  | .rest _ reads => reads.clock
  | .deleteWindow _ clock => clock

structure CoordinationSystem (Uuid Hash : Type) where
  database : CoordinationDatabase Uuid Hash
  clock : Nat

def emptyDatabase : CoordinationDatabase Uuid Hash :=
  { windows := []
    events := []
    runs := [] }

variable [LinearOrder Uuid] [DecidableEq Hash]

/-- A transaction that fails leaves the database as it was. -/
def transact (policyHash : EventCoordinationPolicy -> Hash)
    (db : CoordinationDatabase Uuid Hash) :
    CoordinationTransaction Uuid -> CoordinationDatabase Uuid Hash
  | .coordinate input reads =>
      match coordinateEvent policyHash db input reads with
      | none => db
      | some (committed, _) => committed
  | .release id reads =>
      match releaseCoordinatedEvent db id reads with
      | none => db
      | some (committed, _) => committed
  | .rest id reads => restFailedCoordinatedEvent db id reads
  | .deleteWindow id clock => deleteEventWindow db id clock

def advanceSystem (policyHash : EventCoordinationPolicy -> Hash)
    (system : CoordinationSystem Uuid Hash) (transaction : CoordinationTransaction Uuid) :
    CoordinationSystem Uuid Hash :=
  { database := transact policyHash system.database transaction
    clock := transaction.lastReading }

def CoordinationStep (policyHash : EventCoordinationPolicy -> Hash)
    (before : CoordinationSystem Uuid Hash) (transaction : CoordinationTransaction Uuid)
    (after : CoordinationSystem Uuid Hash) : Prop :=
  before.clock ≤ transaction.firstReading ∧
    transaction.firstReading ≤ transaction.lastReading ∧
    after = advanceSystem policyHash before transaction

def CoordinationRun (policyHash : EventCoordinationPolicy -> Hash) :
    List (CoordinationTransaction Uuid) -> CoordinationSystem Uuid Hash -> Prop :=
  Run (fun system => system.database = emptyDatabase) (CoordinationStep policyHash)

variable {policyHash : EventCoordinationPolicy -> Hash} {db : CoordinationDatabase Uuid Hash}
variable {clock : Nat}

theorem CoordinationInvariant.restFailedCoordinatedEvent
    (h : CoordinationInvariant policyHash db clock) (id : Uuid) {reads : ReleaseReads Uuid}
    (hclock : clock ≤ reads.clock) :
    Commits policyHash db (restFailedCoordinatedEvent db id reads) reads.clock := by
  have hticked := h.tick hclock
  have hunchanged : Commits policyHash db db reads.clock :=
    Commits.of_runs_eq hticked (eventsKept_of_append (List.append_nil _).symm) rfl
  rw [Triggers.restFailedCoordinatedEvent.eq_def]
  split
  · exact hunchanged
  · dsimp only
    split
    · exact hunchanged
    · apply Commits.of_runs_eq
      · apply hticked.setPendingState
        intro pending held hheld
        cases hheld
        exact ⟨rfl, rfl, Nat.min_le_right _ _⟩
      · exact eventsKept_setPendingState _ _
      · rfl

/-- Every transaction keeps the invariant, whether it commits or fails. -/
theorem CoordinationStep.commits {before after : CoordinationSystem Uuid Hash}
    {transaction : CoordinationTransaction Uuid}
    (h : CoordinationStep policyHash before transaction after)
    (hinjective : Function.Injective policyHash)
    (hbefore : CoordinationInvariant policyHash before.database before.clock) :
    Commits policyHash before.database after.database after.clock := by
  rcases h with ⟨hfirst, hlast, hafter⟩
  have hunchanged : Commits policyHash before.database before.database transaction.lastReading :=
    Commits.of_runs_eq (hbefore.tick (hfirst.trans hlast))
      (eventsKept_of_append (List.append_nil _).symm) rfl
  rw [hafter]
  cases transaction with
  | coordinate input reads =>
      rw [advanceSystem, transact]
      dsimp only
      split
      · exact hunchanged
      · next committed result hcommit =>
        exact (hbefore.coordinateEvent hinjective hfirst hlast hcommit).commits
  | release id reads =>
      rw [advanceSystem, transact]
      dsimp only
      split
      · exact hunchanged
      · next committed result hcommit =>
        exact hbefore.releaseCoordinatedEvent hinjective hfirst hcommit
  | rest id reads => exact hbefore.restFailedCoordinatedEvent id hfirst
  | deleteWindow id clock =>
      apply Commits.of_runs_eq
      · exact (hbefore.tick hfirst).deleteEventWindow id le_rfl
      · exact eventsKept_of_append (List.append_nil _).symm
      · rfl

theorem CoordinationRun.invariant {transactions : List (CoordinationTransaction Uuid)}
    {system : CoordinationSystem Uuid Hash} (h : CoordinationRun policyHash transactions system)
    (hinjective : Function.Injective policyHash) :
    CoordinationInvariant policyHash system.database system.clock := by
  apply Run.invariant h fun _ system =>
    CoordinationInvariant policyHash system.database system.clock
  · intro start hstart
    rw [hstart]
    exact coordinationInvariant_empty policyHash start.clock
  · intro inputs before transaction after _ hbefore hstep
    exact (CoordinationStep.commits hstep hinjective hbefore).invariant

/-!
## Order and limit
-/

/-- No window of a throttled key was charged for more runs than the limit. -/
def WithinLimits (policyHash : EventCoordinationPolicy -> Hash)
    (db : CoordinationDatabase Uuid Hash) : Prop :=
  forall source windowSeconds limit onExcess (key : EventKey Uuid Hash),
    key.policyHash = policyHash (.throttle source windowSeconds limit onExcess) ->
    forall window, chargedIn db.charges key window ≤ limit.val

/-- The runs of a key for queued events started in the order of their events. -/
def StartedByPosition (runs : List (CoordinatedRun Uuid Hash)) : Prop :=
  runs.Pairwise fun earlier later => earlier.key = later.key -> earlier.queued = true ->
    later.queued = true -> earlier.position < later.position

instance (runs : List (CoordinatedRun Uuid Hash)) : Decidable (StartedByPosition runs) :=
  inferInstanceAs (Decidable (runs.Pairwise fun earlier later => earlier.key = later.key ->
    earlier.queued = true -> later.queued = true -> earlier.position < later.position))

/-- The runs of a key started in the order in which their events were received. -/
def StartedAsReceived (runs : List (CoordinatedRun Uuid Hash)) : Prop :=
  runs.Pairwise fun earlier later =>
    earlier.key = later.key -> earlier.receivedAt ≤ later.receivedAt

/-- An event has ended, or is due no later than its deadline. -/
def Settled (event : CoordinatedEvent Uuid) : Prop :=
  match event.state with
  | .pending pending => pending.dueAt ≤ pending.deadlineAt
  | .started _ => True
  | .skipped _ => True
  | .coalesced _ => True
  | .refused _ => True

omit [LinearOrder Uuid] [DecidableEq Hash] in
theorem EventRows.settled (h : EventRows policyHash db) {event : CoordinatedEvent Uuid}
    (hmem : event ∈ db.events) : Settled event := by
  rw [Settled]
  split
  · next pending hpending => exact (h.pending event hmem pending hpending).due_le
  · trivial
  · trivial
  · trivial
  · trivial

/-- In every run of receptions and releases: no window is charged beyond the
limit, the runs of a key start as their events were received, no event starts
two runs, and every event has ended or is due by its deadline. In every next
step: only the oldest pending event of a key starts a run, what has ended stays
as it is, and a received event is recorded. -/
theorem throttled_events_in_order (hinjective : Function.Injective policyHash)
    {transactions : List (CoordinationTransaction Uuid)} {system : CoordinationSystem Uuid Hash}
    (hrun : CoordinationRun policyHash transactions system) :
    WithinLimits policyHash system.database ∧
    StartedAsReceived system.database.runs ∧
    (system.database.runs.map CoordinatedRun.eventId).Nodup ∧
    (forall event, event ∈ system.database.events -> Settled event) ∧
    (forall transaction after, CoordinationStep policyHash system transaction after ->
      StartsOldest system.database after.database ∧
      EventsKept system.database after.database) ∧
    (forall input reads after result, system.clock ≤ reads.clock ->
      reads.clock ≤ reads.receivedAt ->
      coordinateEvent policyHash system.database input reads = some (after, result) ->
      exists event, event ∈ after.events ∧ event.id = input.eventId) := by
  have hinvariant := hrun.invariant hinjective
  refine ⟨?_, ?_, ?_, ?_, ?_, ?_⟩
  · exact fun source windowSeconds limit onExcess key hkey =>
      (hinvariant.throttled source windowSeconds limit onExcess).within key hkey
  · exact hinvariant.received.ordered
  · exact hinvariant.runs.ids_nodup
  · exact fun event hmem => hinvariant.events.settled hmem
  · intro transaction after hstep
    have hcommits := hstep.commits hinjective hinvariant
    exact ⟨hcommits.oldest, hcommits.kept⟩
  · intro input reads after result hfirst hlast hcommit
    exact (hinvariant.coordinateEvent hinjective hfirst hlast hcommit).recorded

/-!
## Runs of given transactions
-/

def readings (transactions : List (CoordinationTransaction Uuid)) : List Nat :=
  transactions.flatMap fun transaction => [transaction.firstReading, transaction.lastReading]

theorem clock_mem_readings (start : CoordinationSystem Uuid Hash)
    (transactions : List (CoordinationTransaction Uuid)) :
    (transactions.foldl (advanceSystem policyHash) start).clock ∈
      start.clock :: readings transactions := by
  cases transactions using List.reverseRecOn with
  | nil => exact List.mem_singleton_self _
  | append_singleton earlier last =>
      rw [List.foldl_concat, readings, List.flatMap_append]
      simp [advanceSystem]

theorem coordinationRun_foldl (start : CoordinationSystem Uuid Hash)
    (hstart : start.database = emptyDatabase)
    (transactions : List (CoordinationTransaction Uuid))
    (h : (start.clock :: readings transactions).Pairwise (· ≤ ·)) :
    CoordinationRun policyHash transactions
      (transactions.foldl (advanceSystem policyHash) start) := by
  induction transactions using List.reverseRecOn with
  | nil => exact Run.start hstart
  | append_singleton earlier last ih =>
      have hsplit : start.clock :: readings (earlier ++ [last]) =
          (start.clock :: readings earlier) ++ [last.firstReading, last.lastReading] := by
        simp [readings]
      rw [hsplit] at h
      rcases List.pairwise_append.mp h with ⟨hearlier, hlast, hbetween⟩
      rw [List.foldl_concat]
      apply Run.step (ih hearlier)
      refine ⟨?_, ?_, rfl⟩
      · exact hbetween _ (clock_mem_readings start earlier) _ (List.mem_cons_self ..)
      · exact (List.pairwise_cons.mp hlast).left _ (List.mem_singleton_self _)

end

/-- Two runs a minute; two events are queued and released at one reading of the
clock, at which a third is received. -/
def samplePolicy : EventCoordinationPolicy :=
  .throttle (.runInput "$.customer") ⟨60, by decide⟩ ⟨2, by decide⟩ .delay

def sampleReceives (id clock : Nat) : CoordinationTransaction Nat :=
  .coordinate
    { eventId := id
      workflowId := 100
      nodeId := "webhook"
      endpointId := some 200
      startedBy := none
      versionId := 300
      prepared := { policy := samplePolicy, keyHash := some "customer", inputJson := "1" } }
    { clock
      receivedAt := clock
      windowId := 400
      admission := .accepted (500 + id) false }

def sampleReleases (id clock : Nat) : CoordinationTransaction Nat :=
  .release id
    { clock
      skipsLocked := false
      workspaceStatus := some .active
      workflow := fun _ => some
        { publishedVersionId := some 300
          lifecycleStatus := .active
          triggerPauseState := .none }
      endpointTriggers := fun _ _ => [600]
      hasVersion := fun _ => true
      admission := .accepted (500 + id) false }

def sampleTransactions : List (CoordinationTransaction Nat) :=
  [sampleReceives 1 1000000, sampleReceives 2 1000000, sampleReceives 3 2000000,
   sampleReceives 5 61000000, sampleReleases 3 61000000, sampleReleases 5 61000000,
   sampleReceives 4 61000000, sampleReleases 4 121000000]

def sampleSystem : CoordinationSystem Nat EventCoordinationPolicy :=
  sampleTransactions.foldl (advanceSystem id) { database := emptyDatabase, clock := 0 }

theorem queued_events_out_of_position :
    CoordinationRun id sampleTransactions sampleSystem ∧
      ¬ StartedByPosition sampleSystem.database.runs :=
  ⟨coordinationRun_foldl _ rfl _ (by decide), by decide⟩

theorem throttled_events_in_order_sample :
    WithinLimits id sampleSystem.database ∧ StartedAsReceived sampleSystem.database.runs :=
  have h := throttled_events_in_order Function.injective_id
    (coordinationRun_foldl { database := emptyDatabase, clock := 0 } rfl sampleTransactions
      (by decide))
  ⟨h.left, h.right.left⟩

end Triggers
end Pertexo
