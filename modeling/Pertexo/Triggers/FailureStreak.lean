import Mathlib.Data.Prod.Lex
import Pertexo.Library.Latest
import Pertexo.Library.Sorting

/-!
# Failure streaks of triggers

## Completions

A completion stands at the time it ended, and completions that ended at the same
time stand in the order of their ids. Times and ids are ordered alike by their
texts and by the database.
-/

namespace Pertexo
namespace Triggers

open Library

structure CompletionPosition (Time Uuid : Type) where
  endedAt : Time
  id : Uuid
deriving DecidableEq

structure TriggerOutcome (Time Uuid : Type) where
  endedAt : Time
  id : Uuid
  runId : Uuid
  countsAsFailure : Bool
deriving DecidableEq

def TriggerOutcome.position {Time Uuid : Type} (outcome : TriggerOutcome Time Uuid) :
    CompletionPosition Time Uuid :=
  { endedAt := outcome.endedAt
    id := outcome.id }

def maxAutoPauseThreshold : Nat :=
  100

/-!
## Rows
-/

inductive WorkspaceStatus where
  | active
  | suspended
  | pendingDeletion
  | purging
  | deleted
deriving DecidableEq, Repr

def activeWorkspaceStatuses : List WorkspaceStatus :=
  [.active]

inductive LifecycleStatus where
  | active
  | archived
deriving DecidableEq, Repr

inductive TriggerPauseState where
  | none
  | paused
deriving DecidableEq, Repr

structure PauseWorkspace where
  status : WorkspaceStatus
  autoPauseThreshold : Nat
deriving DecidableEq, Repr

structure PauseWorkflow (Time Uuid : Type) where
  autoPauseEnabled : Bool
  autoPauseThreshold : Option Nat
  lifecycleStatus : LifecycleStatus
  triggerPauseState : TriggerPauseState
  triggerPausedAt : Option Time
  triggerPauseReason : Option String
  triggerPauseFailures : Option Nat
  triggerPauseLastRunId : Option Uuid
  triggerPauseRevision : Nat

structure FailureStreak (Time Uuid : Type) where
  consecutiveFailures : Nat
  legacyFailures : Nat
  resumedAfter : Option Time
  success : Option (CompletionPosition Time Uuid)
  lastRunId : Option Uuid
  lastEndedAt : Option Time

def newStreak {Time Uuid : Type} : FailureStreak Time Uuid :=
  { consecutiveFailures := 0
    legacyFailures := 0
    resumedAfter := none
    success := none
    lastRunId := none
    lastEndedAt := none }

structure PauseAudit (Uuid : Type) where
  action : String
  targetType : String
  reason : String
  failures : Nat
  threshold : Nat
  lastRunId : Uuid

/-- What the folds of one workflow read and write. The retained failures are kept
as the outcomes that were counted. -/
structure PauseDatabase (Time Uuid : Type) where
  workspace : Option PauseWorkspace
  workflow : Option (PauseWorkflow Time Uuid)
  outcomes : List (TriggerOutcome Time Uuid)
  streak : Option (FailureStreak Time Uuid)
  failures : List (TriggerOutcome Time Uuid)
  audits : List (PauseAudit Uuid)

structure PauseEvidence (Uuid : Type) where
  runId : Uuid
  failures : Nat

structure PauseDecision where
  consecutiveFailures : Nat
deriving DecidableEq, Repr

section

variable {Time Uuid : Type} [LinearOrder Time] [LinearOrder Uuid]

def compareCompletions (left right : CompletionPosition Time Uuid) : Ordering :=
  if left.endedAt < right.endedAt then .lt
  else if left.endedAt > right.endedAt then .gt
  else if left.id < right.id then .lt
  else if left.id > right.id then .gt
  else .eq

/-- An older success clears only the opaque upgrade carry and failures before it. -/
def advanceSuccessWatermark (prior : Option (CompletionPosition Time Uuid))
    (outcomes : List (TriggerOutcome Time Uuid)) : Option (CompletionPosition Time Uuid) :=
  outcomes.foldl (fun success outcome =>
    if outcome.countsAsFailure then success
    else
      match success with
      | none => some outcome.position
      | some latest =>
          if compareCompletions outcome.position latest = Ordering.gt then some outcome.position
          else some latest) prior

def pauseEvidence (consecutiveFailures : Nat) (latestFailure : Option (TriggerOutcome Time Uuid))
    (threshold : Nat) : Option (PauseEvidence Uuid) :=
  match latestFailure with
  | none => none
  | some latest =>
      if consecutiveFailures < threshold then none
      else some { runId := latest.runId, failures := consecutiveFailures }

/-!
## Folding outcomes into a streak
-/

def isAfterResume (resumedAfter : Option Time) (outcome : TriggerOutcome Time Uuid) : Bool :=
  match resumedAfter with
  | none => true
  | some resumed => decide (resumed < outcome.endedAt)

def isAfterSuccess (success : Option (CompletionPosition Time Uuid))
    (outcome : TriggerOutcome Time Uuid) : Bool :=
  match success with
  | none => true
  | some latest => compareCompletions outcome.position latest == Ordering.gt

def sortCompletions (outcomes : List (TriggerOutcome Time Uuid)) :
    List (TriggerOutcome Time Uuid) :=
  sortWith (fun left right => compareCompletions left.position right.position) outcomes

/-- The latest pending success, which consumption may not have reached yet. -/
def readPendingSuccess (outcomes : List (TriggerOutcome Time Uuid)) (resumedAfter : Option Time) :
    Option (TriggerOutcome Time Uuid) :=
  (sortCompletions (outcomes.filter fun outcome =>
    !outcome.countsAsFailure && isAfterResume resumedAfter outcome)).reverse.head?

/-- A failure is not inserted over one with its id or its run. -/
def insertFailure (failures : List (TriggerOutcome Time Uuid))
    (failure : TriggerOutcome Time Uuid) :
    List (TriggerOutcome Time Uuid) :=
  if failures.any fun other => other.id == failure.id || other.runId == failure.runId then failures
  else failures ++ [failure]

def deleteFailuresBefore (first : Option (TriggerOutcome Time Uuid))
    (failures : List (TriggerOutcome Time Uuid)) : List (TriggerOutcome Time Uuid) :=
  match first with
  | none => []
  | some first => failures.filter fun failure =>
      compareCompletions failure.position first.position != Ordering.lt

/-- The retained failures that still count, the newest of them first. -/
def positionedFailures (resumedAfter : Option Time)
    (success : Option (CompletionPosition Time Uuid)) (failures : List (TriggerOutcome Time Uuid)) :
    List (TriggerOutcome Time Uuid) :=
  (sortCompletions (failures.filter fun failure =>
    isAfterResume resumedAfter failure && isAfterSuccess success failure)).reverse.take
      maxAutoPauseThreshold

def streakLength (legacyFailures positioned : Nat) : Nat :=
  max legacyFailures (min maxAutoPauseThreshold (legacyFailures + positioned))

def applyOrderedOutcomes (db : PauseDatabase Time Uuid) (prior : FailureStreak Time Uuid)
    (eligible : List (TriggerOutcome Time Uuid)) (threshold : Nat)
    (pendingSuccess : Option (TriggerOutcome Time Uuid)) :
    PauseDatabase Time Uuid × Option (PauseEvidence Uuid) :=
  let success := advanceSuccessWatermark prior.success (eligible ++ pendingSuccess.toList)
  let legacyFailures := if success.isNone then prior.legacyFailures else 0
  let positioned := positionedFailures prior.resumedAfter success db.failures
  let additions := eligible.filter fun outcome =>
    outcome.countsAsFailure && isAfterSuccess success outcome
  let ordered := sortCompletions (positioned ++ additions)
  let kept := lastItems maxAutoPauseThreshold ordered
  let inserts := kept.filter fun failure => additions.any fun added => added.id == failure.id
  let failures := inserts.foldl insertFailure (deleteFailuresBefore kept.head? db.failures)
  let latestFailure := ordered.getLast?
  let latestSuccess :=
    (eligible ++ pendingSuccess.toList).find? fun outcome => some outcome.id == success.map (·.id)
  let last := latestFailure.or latestSuccess
  let consecutiveFailures := streakLength legacyFailures ordered.length
  let streak : FailureStreak Time Uuid :=
    { prior with
      consecutiveFailures
      legacyFailures
      success
      lastRunId := (last.map TriggerOutcome.runId).or prior.lastRunId
      lastEndedAt := (last.map TriggerOutcome.endedAt).or prior.lastEndedAt }
  ({ db with streak := some streak, failures },
    pauseEvidence consecutiveFailures latestFailure threshold)

def pauseTriggers (db : PauseDatabase Time Uuid) (workflow : PauseWorkflow Time Uuid) (now : Time)
    (threshold : Nat) (evidence : PauseEvidence Uuid) : PauseDatabase Time Uuid :=
  { db with
    workflow := some
      { workflow with
        triggerPauseState := .paused
        triggerPausedAt := some now
        triggerPauseReason := some "consecutive_failures"
        triggerPauseFailures := some evidence.failures
        triggerPauseLastRunId := some evidence.runId
        triggerPauseRevision := workflow.triggerPauseRevision + 1 }
    audits := db.audits ++
      [{ action := "workflow.triggers_paused"
         targetType := "workflow"
         reason := "consecutive_failures"
         failures := evidence.failures
         threshold
         lastRunId := evidence.runId }] }

def canPause (workspace : PauseWorkspace) (workflow : PauseWorkflow Time Uuid) : Bool :=
  workflow.autoPauseEnabled && workflow.lifecycleStatus == .active &&
    workflow.triggerPauseState == .none && activeWorkspaceStatuses.contains workspace.status

def batchOf (db : PauseDatabase Time Uuid) (candidateIds : List Uuid) (locked : Uuid -> Bool) :
    List (TriggerOutcome Time Uuid) :=
  sortCompletions (db.outcomes.filter fun outcome =>
    candidateIds.contains outcome.id && !locked outcome.id)

def takeBatch (db : PauseDatabase Time Uuid) (batch : List (TriggerOutcome Time Uuid)) :
    PauseDatabase Time Uuid :=
  { db with
    outcomes := db.outcomes.filter fun outcome => !(batch.any fun taken => taken.id == outcome.id)
    streak := some (db.streak.getD newStreak) }

/-- Folds the candidates among the pending outcomes, and decides whether to pause. -/
def foldWorkflow (db : PauseDatabase Time Uuid) (candidateIds : List Uuid) (locked : Uuid -> Bool)
    (now : Time) : PauseDatabase Time Uuid × Option PauseDecision :=
  match db.workspace, db.workflow with
  | some workspace, some workflow =>
      let batch := batchOf db candidateIds locked
      if batch.isEmpty then (db, none)
      else
        let taken := takeBatch db batch
        let prior := db.streak.getD newStreak
        let eligible := batch.filter (isAfterResume prior.resumedAfter)
        if eligible.isEmpty then (taken, none)
        else
          let pendingSuccess := readPendingSuccess taken.outcomes prior.resumedAfter
          let threshold := workflow.autoPauseThreshold.getD workspace.autoPauseThreshold
          let applied := applyOrderedOutcomes taken prior eligible threshold pendingSuccess
          match applied.snd with
          | none => (applied.fst, none)
          | some evidence =>
              if canPause workspace workflow then
                (pauseTriggers applied.fst workflow now threshold evidence,
                  some { consecutiveFailures := evidence.failures })
              else (applied.fst, none)
  | _, _ => (db, none)

end

end Triggers
end Pertexo
