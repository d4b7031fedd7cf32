import Pertexo.Engine.Checkpoint
import Pertexo.Engine.Derived
import Pertexo.Engine.LoopTransitions
import Pertexo.Engine.Observations

/-!
# Transition plans

## Pruning finished iterations
-/

namespace Pertexo
namespace Engine

open Library
open Values

/-- The invocation runs in the iteration, directly or in a loop nested in it. -/
def iterationOwns (loop : LoopState) (ordinal : Nat) (invocation : InvocationState) : Bool :=
  iterationPathHasPrefix invocation.iterationPath (loop.iterationScope ordinal) &&
    branchPathHasPrefix invocation.branchPath (some loop.branchPath)

def finishedOwnerKeys (invocations : List InvocationState) (loop : LoopState)
    (ordinal : Nat) : List String :=
  let owners := invocations.filter (iterationOwns loop ordinal)
  if owners.all fun owner => isTerminalNodeStatus owner.status then
    owners.map InvocationState.invocationKey
  else []

def prunedKeysOf (invocations : List InvocationState) (loops : List LoopState) : List String :=
  loops.flatMap fun loop => loop.terminalOrdinals.flatMap (finishedOwnerKeys invocations loop)

def advancePrefix (loop : LoopState) (kept : List InvocationState) : Nat -> Nat -> Nat
  | 0, frontier => frontier
  | fuel + 1, frontier =>
      if loop.terminalOrdinals.contains frontier && !kept.any (iterationOwns loop frontier) then
        advancePrefix loop kept fuel (frontier + 1)
      else frontier

/-- Every ordinal the frontier passes is terminal, which bounds the number of passes. -/
def pruneLoop (kept : List InvocationState) (loop : LoopState) : LoopState :=
  let completedPrefix := advancePrefix loop kept loop.terminalOrdinals.length loop.completedPrefix
  { loop with
    completedPrefix := completedPrefix
    terminalOrdinals := loop.terminalOrdinals.filter fun ordinal => completedPrefix <= ordinal }

structure PrunedTransition where
  invocations : List InvocationState
  prunedInvocations : List InvocationState
  prunedKeys : List String
  loops : List LoopState
  joins : List JoinState
  branchSelections : List BranchSelection
  retiredIterationBudget : Nat

def pruneFinishedIterations (state : WorkflowTransition) : PrunedTransition :=
  let invocations := state.invocations.items
  let prunedKeys := prunedKeysOf invocations state.loops.items
  let kept := invocations.filter fun invocation =>
    !prunedKeys.contains invocation.invocationKey
  let keptLoops := state.loops.items.filter fun loop =>
    !prunedKeys.contains loop.controlInvocationKey
  let retiredLoops := state.loops.items.filter fun loop =>
    prunedKeys.contains loop.controlInvocationKey
  { invocations := kept
    prunedInvocations := invocations.filter fun invocation =>
      prunedKeys.contains invocation.invocationKey
    prunedKeys := prunedKeys
    loops := keptLoops.map (pruneLoop kept)
    joins := state.joins.items.filter fun join => !prunedKeys.contains join.joinInvocationKey
    branchSelections := state.branchSelections.filter fun selection =>
      !prunedKeys.contains selection.invocationKey
    retiredIterationBudget :=
      state.current.retiredIterationBudget.getD 0 + totalCollectionSize retiredLoops }

/-!
## Bounded admissions
-/

/-- A Parallel cap is kept for each branch prefix and each enclosing iteration. -/
structure ParallelConstraint where
  nodeId : String
  branchPrefix : BranchPath
  iterationPrefix : IterationPath
deriving DecidableEq, Repr

structure ParallelLimit where
  constraint : ParallelConstraint
  limit : Nat
deriving DecidableEq, Repr

def containingIterationPrefix (containingLoopId : Option String)
    (iterationPath : IterationPath) : EngineResult IterationPath :=
  match containingLoopId with
  | none => Except.ok []
  | some loopId =>
      match iterationPath.findIdx? fun part => part.loopNodeId == loopId with
      | none =>
          fail .checkpointInvalid "Parallel invocation is missing its containing loop scope"
      | some index => Except.ok (iterationPath.take (index + 1))

def parallelLimit (schedulerNodes : SchedulerNodeLookup) (invocation : InvocationState)
    (part : BranchScopePart × Nat) : EngineResult (List ParallelLimit) :=
  match schedulerNodes.get? part.fst.nodeId with
  | none => Except.ok []
  | some owner =>
      match configuredParallelMaxConcurrency owner.node with
      | none => Except.ok []
      | some limit => do
          let iterationPrefix ← containingIterationPrefix owner.containingLoopId
            (invocation.iterationPath.getD [])
          let constraint : ParallelConstraint :=
            { nodeId := part.fst.nodeId
              branchPrefix := (invocation.branchPath.getD []).take part.snd
              iterationPrefix := iterationPrefix }
          pure [{ constraint := constraint, limit := limit }]

def parallelLimits (schedulerNodes : SchedulerNodeLookup) (invocation : InvocationState) :
    EngineResult (List ParallelLimit) := do
  let limits ← (invocation.branchPath.getD []).zipIdx.mapM
    (parallelLimit schedulerNodes invocation)
  pure limits.flatten

abbrev ActiveCounts := Keyed (ParallelConstraint × Nat) Prod.fst

def activeCount (counts : ActiveCounts) (constraint : ParallelConstraint) : Nat :=
  ((counts.get? constraint).map Prod.snd).getD 0

def countLimit (counts : ActiveCounts) (limit : ParallelLimit) : ActiveCounts :=
  counts.set (limit.constraint, activeCount counts limit.constraint + 1)

def countRunning (schedulerNodes : SchedulerNodeLookup) (counts : ActiveCounts)
    (invocation : InvocationState) : EngineResult ActiveCounts :=
  if invocation.status != .running then Except.ok counts
  else do
    let limits ← parallelLimits schedulerNodes invocation
    pure (limits.foldl countLimit counts)

structure AdmissionProgress where
  active : ActiveCounts
  admitted : List String

def admitWithinLimits (schedulerNodes : SchedulerNodeLookup) (invocations : InvocationMap)
    (maximumAdmissions : Nat) (progress : AdmissionProgress) (key : String) :
    EngineResult AdmissionProgress :=
  if maximumAdmissions <= progress.admitted.length then Except.ok progress
  else
    match invocations.get? key with
    | none => Except.ok progress
    | some invocation => do
        let limits ← parallelLimits schedulerNodes invocation
        if limits.any fun limit => limit.limit <= activeCount progress.active limit.constraint then
          pure progress
        else
          pure
            { active := limits.foldl countLimit progress.active
              admitted := progress.admitted ++ [key] }

def boundedReadyAdmissions (state : WorkflowTransition) (maximumAdmissions : Nat)
    (readySet : List String) : EngineResult (List String) := do
  let active ← state.invocations.items.foldlM (countRunning state.schedulerNodes) Keyed.empty
  let progress ← readySet.foldlM
    (admitWithinLimits state.schedulerNodes state.invocations maximumAdmissions)
    { active := active, admitted := [] }
  pure progress.admitted

def attemptAdmissionKind : Option WaitKind -> AdmissionKind
  | some .nodeWait => .waitResume
  | some .retryBackoff => .retry
  | _ => .execute

structure AttemptAdmissions where
  state : WorkflowTransition
  attempts : List AttemptAdmissionPlan

def admitAttempt (progress : AttemptAdmissions) (key : String) :
    EngineResult AttemptAdmissions :=
  match progress.state.invocations.get? key with
  | none => fail .checkpointInvalid ("ready invocation " ++ key ++ " is missing")
  | some invocation => do
      assertNodeTransition invocation.status .running
      let running :=
        { invocation.withStatus .running with attemptNumber := invocation.attemptNumber + 1 }
      let sideEffectClass ← schedulerAttemptSideEffectClass progress.state.schedulerNodes
        running.nodeId
      let attempt : AttemptAdmissionPlan :=
        { invocationKey := key
          nodeId := running.nodeId
          attemptNumber := running.attemptNumber
          admissionKind := attemptAdmissionKind invocation.waitKind
          sideEffectClass := sideEffectClass
          branchPath := running.branchPath
          iterationPath := running.iterationPath }
      pure
        { state := progress.state.setInvocation running
          attempts := progress.attempts ++ [attempt] }

def admitAttempts (state : WorkflowTransition) (admittedKeys : List String) :
    EngineResult AttemptAdmissions :=
  admittedKeys.foldlM admitAttempt { state := state, attempts := [] }

/-!
## The status of the run
-/

def isUnhandledFailure (invocation : InvocationState) : Bool :=
  invocation.status == .failed &&
    !invocation.failureHandling.any fun handling => handling.disposition == .handled

def hasStatus (invocations : List InvocationState) (status : NodeStatus) : Bool :=
  invocations.any fun invocation => invocation.status == status

def deriveTerminalRunStatus (cancelRequested deadlineExpired graphIncomplete : Bool)
    (invocations : List InvocationState) : Option RunStatus :=
  if hasStatus invocations .outcomeUnknown then some .outcomeUnknown
  else if cancelRequested then some .canceled
  else if deadlineExpired then some .timedOut
  else if hasStatus invocations .timedOut then some .timedOut
  else if invocations.any isUnhandledFailure then some .failed
  else if hasStatus invocations .canceled then some .canceled
  else if !invocations.isEmpty && !graphIncomplete &&
      invocations.all (fun invocation =>
        invocation.status == .succeeded || invocation.status == .skipped ||
          invocation.status == .failed) then
    some .succeeded
  else none

structure PlanInput where
  consumedObservationCount : Nat
  consumedThroughEventSequence : Nat
  maximumAdmissions : Nat
  hasExecutionSlot : Bool
  occurredAt : Timestamp

def isGraphIncomplete (state : WorkflowTransition) : Bool :=
  state.graph.level.nodes.any fun node =>
    !state.invocations.items.any fun invocation => invocation.nodeId == node.id

def runIsActive (status : RunStatus) : Bool :=
  status == .queued || status == .running || status == .waiting

def isParked (state : WorkflowTransition) (hasExecutionSlot : Bool)
    (invocation : InvocationState) : Bool :=
  invocation.status == .waiting ||
    (invocation.status == .pending && state.joins.has invocation.invocationKey) ||
    (!hasExecutionSlot && invocation.status == .ready)

def settleRunStatus (state : WorkflowTransition) (input : PlanInput) :
    EngineResult WorkflowTransition :=
  let nonterminal := state.invocations.items.filter fun invocation =>
    !isTerminalNodeStatus invocation.status
  if runIsActive state.runStatus && nonterminal.isEmpty then
    match deriveTerminalRunStatus state.cancelRequested state.deadlineExpired
        (isGraphIncomplete state) state.invocations.items with
    | none => Except.ok state
    | some terminalStatus => do
        assertRunTransition state.runStatus terminalStatus
        pure <| { state with runStatus := terminalStatus }.addDraft
          (transitionEvent (.runTerminal terminalStatus) input.occurredAt)
  else if state.runStatus == .running && !nonterminal.isEmpty &&
      nonterminal.all (isParked state input.hasExecutionSlot) then
    Except.ok <| { state with runStatus := .waiting }.addDraft
      (transitionEvent .runWaiting input.occurredAt)
  else Except.ok state

/-!
## Wakeups
-/

def hasReadyNodes (input : DeriveReadyNodesInput) : EngineResult Bool := do
  let decisions ← deriveReadyNodes input
  pure (!decisions.isEmpty)

def iterationIsUnsettled (state : WorkflowTransition) (loop : LoopState) (ordinal : Nat) :
    EngineResult Bool := do
  let sink ← scopedLoopSinkInvocation loop ordinal state.invocations.items
  if sink.any fun found => isTerminalNodeStatus found.status then pure true
  else
    match structuredBodyOf state.graph loop.loopId with
    | none => pure false
    | some body => hasReadyNodes (bodyReadinessInput state body loop ordinal)

def loopIsUnsettled (state : WorkflowTransition) (loop : LoopState) : EngineResult Bool :=
  if loop.terminalStatus.isSome then Except.ok false
  else loop.activeOrdinals.anyM (iterationIsUnsettled state loop)

def hasUnsettledSchedulerWork (state : WorkflowTransition) : EngineResult Bool :=
  if state.cancelRequested || state.deadlineExpired then Except.ok false
  else do
    let rootReady ← hasReadyNodes (rootReadinessInput state)
    if rootReady then pure true
    else state.loops.items.anyM (loopIsUnsettled state)

def needsContinuation (state : WorkflowTransition) (attempts : List AttemptAdmissionPlan)
    (hasExecutionSlot : Bool) : EngineResult Bool :=
  if hasExecutionSlot && attempts.isEmpty &&
      (state.runStatus == .running || state.runStatus == .waiting) then
    hasUnsettledSchedulerWork state
  else Except.ok false

/-!
## Building the plan
-/

def admissibleKeys (state : WorkflowTransition) (input : PlanInput) :
    EngineResult (List String) :=
  if state.cancelRequested || state.deadlineExpired || !input.hasExecutionSlot then
    Except.ok []
  else
    boundedReadyAdmissions state input.maximumAdmissions
      (readyKeys (sortInvocations state.invocations.items))

def resumeWaitingRun (admissions : AttemptAdmissions) : WorkflowTransition :=
  if admissions.state.runStatus == .waiting && !admissions.attempts.isEmpty then
    { admissions.state with runStatus := .running }
  else admissions.state

def sequenceEvents (first : Nat) (drafts : List EngineEventDraft) : List EngineEventPlan :=
  drafts.zipIdx.map fun indexed => { sequence := first + indexed.snd, draft := indexed.fst }

def plannedCheckpoint (state : WorkflowTransition) (pruned : PrunedTransition)
    (admittedKeys : List String) (nextEventSequence : Nat) : WorkflowCheckpoint :=
  { state.current with
    revision := state.current.revision + 1
    runStatus := state.runStatus
    nextEventSequence := nextEventSequence
    cancelRequested := state.cancelRequested
    deadlineExpired := state.deadlineExpired
    joins := pruned.joins
    loops := pruned.loops
    retiredIterationBudget :=
      if pruned.retiredIterationBudget == 0 then state.current.retiredIterationBudget
      else some pruned.retiredIterationBudget
    remainingIterationBudget := state.remainingIterationBudget
    admittedInvocationKeys :=
      sortOrdinal <|
        ((state.current.admittedInvocationKeys ++ admittedKeys).eraseDups).filter fun key =>
          !pruned.prunedKeys.contains key
    invocations := pruned.invocations
    readySet := reconstructReadySet pruned.invocations
    branchSelections := pruned.branchSelections }

def nodeRunAdmission (state : WorkflowTransition) (invocationKey : String) :
    EngineResult NodeRunAdmissionPlan :=
  match state.invocations.get? invocationKey with
  | none =>
      fail .checkpointInvalid ("materialized invocation " ++ invocationKey ++ " is missing")
  | some invocation => do
      let sideEffectClass ← schedulerNodeSideEffectClass state.schedulerNodes invocation.nodeId
      pure
        { invocationKey := invocationKey
          nodeId := invocation.nodeId
          sideEffectClass := sideEffectClass
          branchPath := invocation.branchPath
          iterationPath := invocation.iterationPath }

def planFromSettled (state : WorkflowTransition) (input : PlanInput)
    (attempts : List AttemptAdmissionPlan) (admittedKeys : List String) :
    EngineResult WorkflowTransitionPlan := do
  let firstDerivedEventSequence :=
    state.current.nextEventSequence + input.consumedObservationCount
  let events := sequenceEvents firstDerivedEventSequence state.eventDrafts
  let pruned := pruneFinishedIterations state
  let checkpoint ← parseCheckpoint
    (plannedCheckpoint state pruned admittedKeys (firstDerivedEventSequence + events.length))
  let nodeRunAdmissions ←
    (sortOrdinal state.nodeRunAdmissionKeys).mapM (nodeRunAdmission state)
  let immediateContinuation ← needsContinuation state attempts input.hasExecutionSlot
  pure
    { failureValues := state.failureValues
      expectedRevision := state.current.revision
      expectedNextEventSequence := state.current.nextEventSequence
      consumedThroughEventSequence := input.consumedThroughEventSequence
      checkpoint := checkpoint
      events := events
      nodeRunAdmissions := nodeRunAdmissions
      attempts := attempts
      prunedInvocations := pruned.prunedInvocations
      immediateContinuation := immediateContinuation }

def buildWorkflowTransitionPlan (state : WorkflowTransition) (input : PlanInput) :
    EngineResult WorkflowTransitionPlan := do
  let admittedKeys ← admissibleKeys state input
  let admissions ← admitAttempts state admittedKeys
  let settled ← settleRunStatus (resumeWaitingRun admissions) input
  planFromSettled settled input admissions.attempts admittedKeys

/-!
## Advancing from the scheduler state
-/

structure PersistedObservationCursor where
  expectedNextEventSequence : Nat
  consumedThroughEventSequence : Nat
deriving DecidableEq, Repr

structure AdvanceFromSchedulerInput where
  checkpoint : WorkflowCheckpoint
  schedulerState : SchedulerState
  observations : List WorkflowObservation
  occurredAt : Timestamp
  maximumAdmissions : Nat
  hasExecutionSlot : Bool
  persistedObservationCursor : PersistedObservationCursor
  deadlineExpiration : Option Timestamp
  dueResumptions : List DueResumption

/-- Facts the coordinator derives are not part of the persisted sequence. -/
def isCoordinatorDerived : WorkflowObservation -> Bool
  | .cursorOnly => false
  | .cancelRequested => false
  | .outcome fact => fact.coordinatorDerived
  | .wait fact => fact.coordinatorDerived
  | .callStarted _ => true
  | .taskStarted _ => true
  | .branchSelected _ => true
  | .joinDeclared _ => true
  | .branchDisposition _ => true
  | .loopStarted _ => true
  | .loopIterationCompleted _ => true

def consumedObservationCount (input : AdvanceFromSchedulerInput) : Nat :=
  input.persistedObservationCursor.consumedThroughEventSequence + 1 -
    input.checkpoint.nextEventSequence

def assertObservationCursor (input : AdvanceFromSchedulerInput) : EngineResult Unit := do
  assertThat
    (input.persistedObservationCursor.expectedNextEventSequence ==
      input.checkpoint.nextEventSequence)
    .observationInvalid "persisted observation cursor does not match checkpoint"
  assertThat
    (input.checkpoint.nextEventSequence <=
        input.persistedObservationCursor.consumedThroughEventSequence + 1 &&
      consumedObservationCount input ==
        (input.observations.filter fun observation => !isCoordinatorDerived observation).length)
    .observationInvalid "persisted observation cursor is invalid"

def initialTransition (input : AdvanceFromSchedulerInput) : WorkflowTransition :=
  { current := input.checkpoint
    graph := input.schedulerState
    schedulerNodes := indexTransitionNodes input.schedulerState
    invocations := Keyed.ofList input.checkpoint.invocations
    joins := Keyed.ofList input.checkpoint.joins
    loops := Keyed.ofList input.checkpoint.loops
    branchSelections := input.checkpoint.branchSelections
    remainingIterationBudget := input.checkpoint.remainingIterationBudget
    cancelRequested := input.checkpoint.cancelRequested
    deadlineExpired := input.checkpoint.deadlineExpired || input.deadlineExpiration.isSome
    deadlineOccurredAt := input.deadlineExpiration
    runStatus := input.checkpoint.runStatus }

def coordinatorNodeId : WorkflowObservation -> List String
  | .joinDeclared fact => [fact.joinId]
  | .loopStarted fact => [fact.loopId]
  | _ => []

def coordinatorNodeIdsOf (input : AdvanceFromSchedulerInput) : List String :=
  input.checkpoint.joins.map JoinState.joinId ++ input.checkpoint.loops.map LoopState.loopId ++
    input.observations.flatMap coordinatorNodeId

def planInputOf (input : AdvanceFromSchedulerInput) : PlanInput :=
  { consumedObservationCount := consumedObservationCount input
    consumedThroughEventSequence :=
      input.persistedObservationCursor.consumedThroughEventSequence
    maximumAdmissions := input.maximumAdmissions
    hasExecutionSlot := input.hasExecutionSlot
    occurredAt := input.occurredAt }

/-- The facts applied, the failure handlers settled and the readiness and joins derived. -/
def stateBeforeLoops (input : AdvanceFromSchedulerInput) : EngineResult WorkflowTransition := do
  let observed ← applyWorkflowObservations (initialTransition input) input.dueResumptions
    input.observations input.occurredAt
  let handled ← settleFailureHandlers observed input.occurredAt
  deriveReadinessAndJoins handled (coordinatorNodeIdsOf input) input.occurredAt

def advanceWorkflowFromSchedulerState (input : AdvanceFromSchedulerInput) :
    EngineResult WorkflowTransitionPlan := do
  assertObservationCursor input
  let derived ← stateBeforeLoops input
  let advanced ← advanceLoopIterations derived input.occurredAt
  let stopped ← applyWorkflowStops advanced input.occurredAt
  buildWorkflowTransitionPlan stopped (planInputOf input)

end Engine
end Pertexo
