import Mathlib.Algebra.GroupWithZero.Nat
import Pertexo.Triggers.EventCoordination

/-!
# Transactions of coordinated events

## Receiving an event

A transaction commits a database or fails, which leaves the database as it was.
What it reads outside of the coordination tables is an argument.
-/

namespace Pertexo
namespace Triggers

open Library

inductive RunAdmission (Uuid : Type) where
  | accepted (runId : Uuid) (duplicate : Bool)
  | alreadyRunning
  | quotaExceeded (retryAfterSeconds : Nat)
  | denied
  | failed

inductive EventOutcome where
  | deduplicated
  | debounced
  | throttled
  | refused
deriving DecidableEq

inductive ReceiptStatus where
  | pending
  | skipped
  | refused
deriving DecidableEq

inductive CoordinateEventResult (Uuid : Type) where
  | coordinated (eventId : Uuid) (outcome : EventOutcome) (status : ReceiptStatus)
      (reason : Option EventCoordinationReason)
  | run (runId : Uuid) (replayed : Bool)
  | skipped (reason : EventCoordinationReason)

/-- `clock` is read first, and `receivedAt` when the event is inserted. -/
structure CoordinateReads (Uuid : Type) where
  clock : Nat
  receivedAt : Nat
  windowId : Uuid
  admission : RunAdmission Uuid

section

variable {Uuid Hash : Type} [LinearOrder Uuid] [DecidableEq Hash]

def comparePositions (left right : CoordinatedEvent Uuid) : Ordering :=
  compare left.position right.position

def pendingsOf (db : CoordinationDatabase Uuid Hash) (keyId : Uuid) :
    List (CoordinatedEvent Uuid × PendingEvent Uuid) :=
  db.events.filterMap fun event =>
    match event.state.pending? with
    | none => none
    | some pending => if pending.keyId = keyId then some (event, pending) else none

def oldestPending (db : CoordinationDatabase Uuid Hash) (keyId : Uuid) :
    Option (CoordinatedEvent Uuid × PendingEvent Uuid) :=
  (sortWith (fun left right => comparePositions left.fst right.fst) (pendingsOf db keyId)).head?

def refuseEvent (db : CoordinationDatabase Uuid Hash) (input : CoordinateEventInput Uuid)
    (receivedAt : Nat) (reason : EventCoordinationReason) :
    Option (CoordinationDatabase Uuid Hash × CoordinateEventResult Uuid) := do
  let db ← recordCoordinatedEvent db input receivedAt (.refused reason)
  some (db, .coordinated input.eventId .refused .refused (some reason))

def startCoordinatedEvent (db : CoordinationDatabase Uuid Hash)
    (input : CoordinateEventInput Uuid) (reads : CoordinateReads Uuid)
    (key : EventWindowRow Uuid Hash) (decision : EventCoordinationDecision) :
    Option (CoordinationDatabase Uuid Hash × CoordinateEventResult Uuid) :=
  match reads.admission with
  | .accepted runId duplicate => do
      let charged := chargeEventWindow db key.id input.prepared.policy decision.window
      let db ← recordCoordinatedEvent charged input reads.receivedAt (.started runId)
      some
        (startRun db
          { runId
            eventId := input.eventId
            key := key.key
            windowStartedAt := decision.window.startedAt
            receivedAt := reads.receivedAt
            queued := false },
          .run runId duplicate)
  | .alreadyRunning => do
      let db ← recordCoordinatedEvent db input reads.receivedAt (.skipped .concurrencyLimit)
      some (db, .skipped .concurrencyLimit)
  | _ => none

def pendingEventQuotaExceeded (db : CoordinationDatabase Uuid Hash)
    (replaced : Option (PendingEvent Uuid)) (bytes : Nat) : Bool :=
  let pending := db.events.filterMap fun event => event.state.pending?
  let pendingBytes := (pending.map fun event => event.inputJson.utf8ByteSize).sum
  let replacedBytes := (replaced.map fun event => event.inputJson.utf8ByteSize).getD 0
  decide (pending.length + (if replaced.isNone then 1 else 0) >
      eventCoordinationLimits.pendingEvents) ||
    decide (pendingBytes + bytes > eventCoordinationLimits.pendingBytes + replacedBytes)

/-- A debounced event takes the place of the pending one. -/
def replacedEvent (policy : EventCoordinationPolicy)
    (pending : Option (CoordinatedEvent Uuid × PendingEvent Uuid)) :
    Option (CoordinatedEvent Uuid × PendingEvent Uuid) :=
  match policy with
  | .debounce .. => pending
  | _ => none

def coalesceEvent (db : CoordinationDatabase Uuid Hash)
    (replaced : Option (CoordinatedEvent Uuid × PendingEvent Uuid)) :
    CoordinationDatabase Uuid Hash :=
  match replaced with
  | none => db
  | some (event, _) => finishCoordinatedEvent db event.id (.coalesced .newerEvent)

def holdEvent (db : CoordinationDatabase Uuid Hash) (input : CoordinateEventInput Uuid)
    (reads : CoordinateReads Uuid) (key : EventWindowRow Uuid Hash)
    (pending : Option (CoordinatedEvent Uuid × PendingEvent Uuid))
    (action : EventCoordinationAction) (dueAt : Nat) :
    Option (CoordinationDatabase Uuid Hash × CoordinateEventResult Uuid) :=
  let policy := input.prepared.policy
  let replaced := replacedEvent policy pending
  if pendingEventQuotaExceeded db (replaced.map Prod.snd)
      input.prepared.inputJson.utf8ByteSize then
    refuseEvent db input reads.receivedAt .coordinationFull
  else do
    let deadlineAt := (replaced.map fun event => event.snd.deadlineAt).getD
      (millis reads.clock + eventCoordinationLimits.pendingMillis)
    let outcome := if action = .debounced then EventOutcome.debounced else .throttled
    let db ← recordCoordinatedEvent (coalesceEvent db replaced) input reads.receivedAt
      (.pending
        { keyId := key.id
          workflowVersionId := input.versionId
          endpointId := input.endpointId
          policy
          inputJson := input.prepared.inputJson
          startedBy := input.startedBy
          dueAt := min dueAt deadlineAt
          deadlineAt
          capacityWaitStartedAt := none
          reason := none })
    some (db, .coordinated input.eventId outcome .pending none)

def coordinateEvent (policyHash : EventCoordinationPolicy -> Hash)
    (db : CoordinationDatabase Uuid Hash) (input : CoordinateEventInput Uuid)
    (reads : CoordinateReads Uuid) :
    Option (CoordinationDatabase Uuid Hash × CoordinateEventResult Uuid) :=
  match input.prepared.keyHash with
  | none => refuseEvent db input reads.receivedAt .invalidKey
  | some keyHash => do
      let policy := input.prepared.policy
      let key : EventKey Uuid Hash :=
        { workflowId := input.workflowId
          nodeId := input.nodeId
          policyHash := policyHash policy
          keyHash }
      let now := millis reads.clock
      let (db, row) ← loadEventWindow db key policy reads.windowId now
      match row with
      | none => refuseEvent db input reads.receivedAt .coordinationFull
      | some row =>
          let pending := oldestPending db row.id
          let window : EventCoordinationWindow :=
            { startedAt := row.windowStartedAt
              used := row.usedCount }
          let decision := decideEventCoordination policy now (some window) pending.isSome
          match decision.action, decision.dueAt with
          | .start, _ => startCoordinatedEvent db input reads row decision
          | .deduplicated, _ => do
              let db ← recordCoordinatedEvent db input reads.receivedAt (.skipped .duplicateKey)
              some (db, .coordinated input.eventId .deduplicated .skipped (some .duplicateKey))
          | _, none => do
              let db ← recordCoordinatedEvent db input reads.receivedAt (.skipped .throttleLimit)
              some (db, .coordinated input.eventId .throttled .skipped (some .throttleLimit))
          | action, some dueAt => holdEvent db input reads row pending action dueAt

/-!
## Releasing a pending event
-/

structure PublishedState (Uuid : Type) where
  publishedVersionId : Option Uuid
  lifecycleStatus : LifecycleStatus
  triggerPauseState : TriggerPauseState

structure ReleaseReads (Uuid : Type) where
  clock : Nat
  skipsLocked : Bool
  workspaceStatus : Option WorkspaceStatus
  workflow : Uuid -> Option (PublishedState Uuid)
  endpointTriggers : CoordinatedEvent Uuid -> PendingEvent Uuid -> List Uuid
  hasVersion : Uuid -> Bool
  admission : RunAdmission Uuid

inductive ReleaseResult where
  | started
  | pending
  | refused
  | idle
deriving DecidableEq

def findPendingEvent (db : CoordinationDatabase Uuid Hash) (id : Uuid) :
    Option (CoordinatedEvent Uuid × PendingEvent Uuid) :=
  db.events.findSome? fun event =>
    match event.state.pending? with
    | none => none
    | some pending => if event.id = id then some (event, pending) else none

def refuseCoordinatedEvent (db : CoordinationDatabase Uuid Hash) (id : Uuid)
    (reason : EventCoordinationReason) :
    Option (CoordinationDatabase Uuid Hash × ReleaseResult) :=
  some (finishCoordinatedEvent db id (.refused reason), .refused)

def hasOlderPending (db : CoordinationDatabase Uuid Hash) (event : CoordinatedEvent Uuid)
    (keyId : Uuid) : Bool :=
  db.events.any fun other =>
    other.isPendingOf keyId && decide (other.position < event.position)

def isUnavailable (workspaceStatus : Option WorkspaceStatus)
    (workflow : Option (PublishedState Uuid)) : Bool :=
  workspaceStatus != some .active ||
    match workflow with
    | none => true
    | some workflow =>
        workflow.lifecycleStatus != .active || workflow.triggerPauseState != .none

def boundedDueAt (dueAt : Nat) (pending : PendingEvent Uuid) (waitStartedAt : Option Nat) : Nat :=
  let due := min dueAt pending.deadlineAt
  match waitStartedAt with
  | none => due
  | some startedAt => min due (startedAt + eventCoordinationLimits.capacityWaitMillis)

def startPendingCoordinatedRun (db : CoordinationDatabase Uuid Hash)
    (event : CoordinatedEvent Uuid) (pending : PendingEvent Uuid) (reads : ReleaseReads Uuid)
    (key : EventWindowRow Uuid Hash) (decision : EventCoordinationDecision) :
    Option (CoordinationDatabase Uuid Hash × ReleaseResult) :=
  if !reads.hasVersion pending.workflowVersionId then
    refuseCoordinatedEvent db event.id .publicationChanged
  else
    match reads.admission with
    | .accepted runId _ =>
        let charged := chargeEventWindow db pending.keyId pending.policy decision.window
        let finished := finishCoordinatedEvent charged event.id (.started runId)
        some
          (startRun finished
            { runId
              eventId := event.id
              key := key.key
              windowStartedAt := decision.window.startedAt
              receivedAt := event.receivedAt
              queued := true },
            .started)
    | .alreadyRunning =>
        some (finishCoordinatedEvent db event.id (.skipped .concurrencyLimit), .refused)
    | .denied => refuseCoordinatedEvent db event.id .workflowUnavailable
    | .quotaExceeded retryAfterSeconds =>
        let now := millis reads.clock
        let waitStartedAt := pending.capacityWaitStartedAt.getD now
        some
          (setPendingState db event.id fun pending =>
            .pending
              { pending with
                reason := some .queueFull
                dueAt := boundedDueAt (now + min 5 retryAfterSeconds * 1000) pending
                  (some waitStartedAt)
                capacityWaitStartedAt := some waitStartedAt },
            .pending)
    | .failed => none

def releaseCoordinatedEvent (db : CoordinationDatabase Uuid Hash) (id : Uuid)
    (reads : ReleaseReads Uuid) : Option (CoordinationDatabase Uuid Hash × ReleaseResult) :=
  match findPendingEvent db id with
  | none => some (db, .idle)
  | some (event, pending) =>
      let workflow := reads.workflow event.workflowId
      let now := millis reads.clock
      let waited := fun startedAt =>
        decide (now ≥ startedAt + eventCoordinationLimits.capacityWaitMillis)
      if reads.skipsLocked then some (db, .idle)
      else if isUnavailable reads.workspaceStatus workflow then
        refuseCoordinatedEvent db id .workflowUnavailable
      else if workflow.bind PublishedState.publishedVersionId ≠ some pending.workflowVersionId then
        refuseCoordinatedEvent db id .publicationChanged
      else if pending.endpointId.isSome && (reads.endpointTriggers event pending).length != 1 then
        refuseCoordinatedEvent db id .endpointDisabled
      else if now ≥ pending.deadlineAt then refuseCoordinatedEvent db id .coordinationTimeout
      else if pending.capacityWaitStartedAt.any waited then
        refuseCoordinatedEvent db id .queueFull
      else if pending.dueAt > now then some (db, .pending)
      else if hasOlderPending db event pending.keyId then some (db, .pending)
      else do
        let key ← db.windows.find? fun row => decide (row.id = pending.keyId)
        let window : EventCoordinationWindow :=
          { startedAt := key.windowStartedAt
            used := key.usedCount }
        let decision := decideEventCoordination pending.policy now (some window) false
        match pending.policy, decision.action, decision.dueAt with
        | .throttle .., .throttled, none => refuseCoordinatedEvent db id .throttleLimit
        | .throttle .., .throttled, some dueAt =>
            some
              (setPendingState db id fun pending =>
                .pending
                  { pending with
                    dueAt := boundedDueAt dueAt pending pending.capacityWaitStartedAt },
                .pending)
        | _, _, _ => startPendingCoordinatedRun db event pending reads key decision

/-- A failed release stays pending, but must let other discovery heads advance. -/
def restFailedCoordinatedEvent (db : CoordinationDatabase Uuid Hash) (id : Uuid)
    (reads : ReleaseReads Uuid) : CoordinationDatabase Uuid Hash :=
  match findPendingEvent db id with
  | none => db
  | some (_, pending) =>
      let now := millis reads.clock
      if reads.skipsLocked || decide (pending.dueAt > now) then db
      else
        setPendingState db id fun pending =>
          .pending
            { pending with
              dueAt := min (now + 60000) pending.deadlineAt
              reason := some .releaseFailed }

end

end Triggers
end Pertexo
