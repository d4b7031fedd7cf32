import Mathlib.Data.Prod.Lex
import Pertexo.Library.Sorting
import Pertexo.Triggers.FailureStreak

/-!
# Coordinated events of triggers

## Policies

A policy bounds its own numbers. Times of decisions are in milliseconds.
-/

namespace Pertexo
namespace Triggers

open Library

abbrev Bounded (low high : Nat) : Type :=
  { n : Nat // low ≤ n ∧ n ≤ high }

inductive EventCoordinationKey where
  | runInput (path : String)
  | expression (expression : String)
deriving DecidableEq

inductive ExcessRule where
  | skip
  | delay
deriving DecidableEq

inductive EventCoordinationPolicy where
  | deduplicate (key : EventCoordinationKey) (windowSeconds : Bounded 1 604800)
  | debounce (key : EventCoordinationKey) (quietSeconds : Bounded 1 3600)
  | throttle (key : EventCoordinationKey) (windowSeconds : Bounded 1 86400)
      (limit : Bounded 1 1000) (onExcess : ExcessRule)
deriving DecidableEq

structure EventCoordinationLimits where
  activeKeys : Nat
  pendingEvents : Nat
  pendingBytes : Nat
  pendingMillis : Nat
  capacityWaitMillis : Nat

def eventCoordinationLimits : EventCoordinationLimits :=
  { activeKeys := 10000
    pendingEvents := 1000
    pendingBytes := 64 * 1024 * 1024
    pendingMillis := 24 * 60 * 60000
    capacityWaitMillis := 15 * 60000 }

structure EventCoordinationWindow where
  startedAt : Nat
  used : Nat

inductive EventCoordinationAction where
  | start
  | deduplicated
  | debounced
  | throttled
deriving DecidableEq

structure EventCoordinationDecision where
  window : EventCoordinationWindow
  action : EventCoordinationAction
  dueAt : Option Nat

/-- The window that is current at `now`: a new one when the last has passed. -/
def currentWindow (width now : Nat) (window : Option EventCoordinationWindow) :
    EventCoordinationWindow :=
  match window with
  | none => { startedAt := now, used := 0 }
  | some window =>
      if window.startedAt + width ≤ now then { startedAt := now, used := 0 } else window

/-- A token is consumed by the caller only after atomic run admission succeeds. -/
def decideEventCoordination (policy : EventCoordinationPolicy) (now : Nat)
    (window : Option EventCoordinationWindow) (hasPending : Bool) : EventCoordinationDecision :=
  match policy with
  | .debounce _ quietSeconds =>
      { window := { startedAt := now, used := 0 }
        action := .debounced
        dueAt := some (now + quietSeconds.val * 1000) }
  | .deduplicate _ windowSeconds =>
      let window := currentWindow (windowSeconds.val * 1000) now window
      { window
        action := if window.used > 0 then .deduplicated else .start
        dueAt := none }
  | .throttle _ windowSeconds limit onExcess =>
      let width := windowSeconds.val * 1000
      let window := currentWindow width now window
      if window.used < limit.val && !hasPending then
        { window
          action := .start
          dueAt := none }
      else
        { window
          action := .throttled
          dueAt :=
            match onExcess with
            | .skip => none
            | .delay => some (if window.used ≥ limit.val then window.startedAt + width else now) }

def EventCoordinationPolicy.seconds : EventCoordinationPolicy -> Nat
  | .deduplicate _ windowSeconds => windowSeconds.val
  | .debounce _ quietSeconds => quietSeconds.val
  | .throttle _ windowSeconds _ _ => windowSeconds.val

/-!
## Rows

The clock of the database reads microseconds; dates keep its milliseconds.
-/

inductive EventCoordinationReason where
  | duplicateKey
  | newerEvent
  | throttleLimit
  | invalidKey
  | coordinationFull
  | coordinationTimeout
  | queueFull
  | concurrencyLimit
  | workflowUnavailable
  | publicationChanged
  | endpointDisabled
  | releaseFailed
deriving DecidableEq

structure EventKey (Uuid Hash : Type) where
  workflowId : Uuid
  nodeId : String
  policyHash : Hash
  keyHash : String
deriving DecidableEq

structure EventWindowRow (Uuid Hash : Type) where
  id : Uuid
  key : EventKey Uuid Hash
  windowStartedAt : Nat
  usedCount : Nat
  expiresAt : Nat

structure PendingEvent (Uuid : Type) where
  keyId : Uuid
  workflowVersionId : Uuid
  endpointId : Option Uuid
  policy : EventCoordinationPolicy
  inputJson : String
  startedBy : Option Uuid
  dueAt : Nat
  deadlineAt : Nat
  capacityWaitStartedAt : Option Nat
  reason : Option EventCoordinationReason

/-- Only pending events have what a release needs, and only started ones a run. -/
inductive EventState (Uuid : Type) where
  | pending (event : PendingEvent Uuid)
  | started (runId : Uuid)
  | skipped (reason : EventCoordinationReason)
  | coalesced (reason : EventCoordinationReason)
  | refused (reason : EventCoordinationReason)

structure CoordinatedEvent (Uuid : Type) where
  id : Uuid
  workflowId : Uuid
  nodeId : String
  receivedAt : Nat
  state : EventState Uuid

structure CoordinatedRun (Uuid Hash : Type) where
  runId : Uuid
  eventId : Uuid
  key : EventKey Uuid Hash
  windowStartedAt : Nat
  receivedAt : Nat
  queued : Bool

structure CoordinationDatabase (Uuid Hash : Type) where
  windows : List (EventWindowRow Uuid Hash)
  events : List (CoordinatedEvent Uuid)
  runs : List (CoordinatedRun Uuid Hash)

section

variable {Uuid Hash : Type}

def EventState.pending? : EventState Uuid -> Option (PendingEvent Uuid)
  | .pending event => some event
  | _ => none

def EventState.isPending (state : EventState Uuid) : Bool :=
  state.pending?.isSome

def CoordinatedEvent.position (event : CoordinatedEvent Uuid) : Nat ×ₗ Uuid :=
  toLex (event.receivedAt, event.id)

def CoordinatedRun.position (run : CoordinatedRun Uuid Hash) : Nat ×ₗ Uuid :=
  toLex (run.receivedAt, run.eventId)

/-- The milliseconds of a reading of the database clock. -/
def millis (clock : Nat) : Nat :=
  clock / 1000

variable [DecidableEq Uuid]

def CoordinatedEvent.isPendingOf (keyId : Uuid) (event : CoordinatedEvent Uuid) : Bool :=
  match event.state.pending? with
  | none => false
  | some pending => decide (pending.keyId = keyId)

def hasPendingOf (db : CoordinationDatabase Uuid Hash) (keyId : Uuid) : Bool :=
  db.events.any (CoordinatedEvent.isPendingOf keyId)

/-!
## Windows of keys
-/

structure PreparedEventCoordination where
  policy : EventCoordinationPolicy
  keyHash : Option String
  inputJson : String

structure CoordinateEventInput (Uuid : Type) where
  eventId : Uuid
  workflowId : Uuid
  nodeId : String
  endpointId : Option Uuid
  startedBy : Option Uuid
  versionId : Uuid
  prepared : PreparedEventCoordination

variable [DecidableEq Hash]

/-- The window of a key, or none when too many keys are active. Inserting a row
whose id is taken fails. -/
def loadEventWindow (db : CoordinationDatabase Uuid Hash) (key : EventKey Uuid Hash)
    (policy : EventCoordinationPolicy) (windowId : Uuid) (now : Nat) :
    Option (CoordinationDatabase Uuid Hash × Option (EventWindowRow Uuid Hash)) :=
  let isLive := fun row : EventWindowRow Uuid Hash =>
    decide (row.expiresAt > now) || hasPendingOf db row.id
  let found := db.windows.find? fun row => decide (row.key = key)
  let active := (db.windows.filter isLive).length
  match found with
  | some row =>
      if isLive row then some (db, some row)
      else if active ≥ eventCoordinationLimits.activeKeys then some (db, none)
      else some (db, some row)
  | none =>
      if active ≥ eventCoordinationLimits.activeKeys then some (db, none)
      else if db.windows.any fun row => decide (row.id = windowId) then none
      else
        let row : EventWindowRow Uuid Hash :=
          { id := windowId
            key
            windowStartedAt := now
            usedCount := 0
            expiresAt := now + policy.seconds * 1000 }
        some ({ db with windows := db.windows ++ [row] }, some row)

def chargeEventWindow (db : CoordinationDatabase Uuid Hash) (keyId : Uuid)
    (policy : EventCoordinationPolicy) (window : EventCoordinationWindow) :
    CoordinationDatabase Uuid Hash :=
  { db with
    windows := db.windows.map fun row =>
      if row.id = keyId then
        { row with
          windowStartedAt := window.startedAt
          usedCount := window.used + 1
          expiresAt := window.startedAt + policy.seconds * 1000 }
      else row }

/-- Retention deletes a window that has expired and that no pending event uses. -/
def deleteEventWindow (db : CoordinationDatabase Uuid Hash) (id : Uuid) (clock : Nat) :
    CoordinationDatabase Uuid Hash :=
  { db with
    windows := db.windows.filter fun row =>
      !(decide (row.id = id) && decide (row.expiresAt * 1000 ≤ clock) &&
        !hasPendingOf db row.id) }

/-!
## Writing events
-/

def CoordinateEventInput.event (input : CoordinateEventInput Uuid) (receivedAt : Nat)
    (state : EventState Uuid) : CoordinatedEvent Uuid :=
  { id := input.eventId
    workflowId := input.workflowId
    nodeId := input.nodeId
    receivedAt
    state }

/-- Inserting an event fails when its id is taken, or when it is a second
pending event of a debounced key. -/
def recordCoordinatedEvent (db : CoordinationDatabase Uuid Hash)
    (input : CoordinateEventInput Uuid) (receivedAt : Nat) (state : EventState Uuid) :
    Option (CoordinationDatabase Uuid Hash) :=
  let isDebounced := fun pending : PendingEvent Uuid =>
    match pending.policy with
    | .debounce .. => true
    | _ => false
  let conflicts := fun event : CoordinatedEvent Uuid =>
    match state.pending?, event.state.pending? with
    | some new, some old =>
        isDebounced new && isDebounced old && decide (old.keyId = new.keyId)
    | _, _ => false
  if db.events.any fun event => decide (event.id = input.eventId) || conflicts event then none
  else
    some { db with events := db.events ++ [input.event receivedAt state] }

/-- Only a pending event is changed. -/
def setPendingState (db : CoordinationDatabase Uuid Hash) (id : Uuid)
    (state : PendingEvent Uuid -> EventState Uuid) : CoordinationDatabase Uuid Hash :=
  { db with
    events := db.events.map fun event =>
      match event.state.pending? with
      | none => event
      | some pending => if event.id = id then { event with state := state pending } else event }

def finishCoordinatedEvent (db : CoordinationDatabase Uuid Hash) (id : Uuid)
    (state : EventState Uuid) : CoordinationDatabase Uuid Hash :=
  setPendingState db id fun _ => state

def startRun (db : CoordinationDatabase Uuid Hash) (run : CoordinatedRun Uuid Hash) :
    CoordinationDatabase Uuid Hash :=
  { db with runs := db.runs ++ [run] }

end

end Triggers
end Pertexo
