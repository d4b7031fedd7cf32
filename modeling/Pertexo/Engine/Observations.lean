import Pertexo.Engine.Checkpoint
import Pertexo.Engine.LoopTransitions
import Pertexo.Engine.Transition

/-!
# Applying observations

## Joins and branch selections
-/

namespace Pertexo
namespace Engine

open Library
open Values

structure DueResumption where
  invocationKey : String
  occurredAt : Timestamp
deriving DecidableEq, Repr

def applyJoinDeclaration (state : WorkflowTransition) (observation : JoinDeclaredObservation) :
    EngineResult WorkflowTransition :=
  if state.cancelRequested ||
      isFinishedIterationScope state.loops.items (some observation.branchPath)
        (some observation.iterationPath) then
    Except.ok state
  else do
    let declared ← declaredJoin observation
    match state.joins.get? observation.joinInvocationKey with
    | some existingJoin =>
        assertThat (sameJoinDeclaration existingJoin declared) .joinInvalid
          ("join " ++ observation.joinId ++ " conflicts with its declaration")
        pure state
    | none =>
        let joined := state.setJoin declared
        if state.invocations.has observation.joinInvocationKey then pure joined
        else
          pure <| joined.materialize
            { invocationKey := observation.joinInvocationKey
              nodeId := observation.joinId
              status := .pending
              attemptNumber := 0
              branchPath := some observation.branchPath
              iterationPath := some observation.iterationPath }

def applyBranchDisposition (state : WorkflowTransition)
    (observation : BranchDispositionObservation) : EngineResult WorkflowTransition :=
  match state.joins.get? observation.joinInvocationKey with
  | none => fail .joinInvalid ("join " ++ observation.joinId ++ " is not declared")
  | some join => do
      let ledger ← recordBranchDisposition join.ledger observation.branch
      pure (state.setJoin { join with ledger := ledger })

def applyBranchSelection (state : WorkflowTransition)
    (observation : BranchSelectedObservation) : EngineResult WorkflowTransition :=
  if state.cancelRequested then Except.ok state
  else do
    let validBranchInvocation :=
      (state.invocations.get? observation.invocationKey).any fun invocation =>
        invocation.nodeId == observation.nodeId && invocation.status == .succeeded &&
          invocation.output.isSome
    assertThat validBranchInvocation .checkpointInvalid
      "branch selection requires a succeeded output-bearing invocation"
    match state.branchSelections.find? fun selection =>
        selection.invocationKey == observation.invocationKey &&
          selection.nodeId == observation.nodeId with
    | some existingSelection =>
        assertThat (existingSelection.selectedOutputPort == observation.selectedOutputPort)
          .checkpointInvalid "branch selection conflicts with the persisted selection"
        pure state
    | none =>
        let selection : BranchSelection :=
          { invocationKey := observation.invocationKey
            nodeId := observation.nodeId
            selectedOutputPort := observation.selectedOutputPort }
        pure
          { state with
            branchSelections :=
              sortWith compareBranchSelections (state.branchSelections ++ [selection]) }

/-!
## Waits and outcomes of one invocation
-/

def applyDeclarationStart (state : WorkflowTransition) (existing : InvocationState)
    (waitKind : WaitKind) (occurredAt : Timestamp) : EngineResult WorkflowTransition :=
  if isTerminalNodeStatus existing.status then Except.ok state
  else if existing.waitKind == some waitKind then Except.ok state
  else do
    assertNodeTransition existing.status .waiting
    let waiting := { existing.withStatus .waiting with waitKind := some waitKind }
    pure <| (state.setInvocation waiting).addDraft
      (transitionEvent .nodeWaiting occurredAt (some existing))

def applyWait (state : WorkflowTransition) (existing : InvocationState)
    (observation : WaitObservation) (occurredAt : Timestamp) :
    EngineResult WorkflowTransition := do
  assertNodeTransition existing.status .waiting
  let waiting :=
    { existing.withStatus .waiting with
      resumeAt := some observation.resumeAt
      waitKind := some observation.waitKind
      output := observation.output <|> existing.output }
  let waited := state.setInvocation waiting
  if observation.coordinatorDerived then
    pure <| waited.addDraft <|
      transitionEvent .nodeRetryScheduled occurredAt (some existing) none
        (some observation.resumeAt)
  else pure waited

def applyTerminalObservation (state : WorkflowTransition) (existing : InvocationState)
    (observation : OutcomeObservation) (occurredAt : Timestamp) :
    EngineResult WorkflowTransition :=
  if isTerminalNodeStatus existing.status then
    if existing.status == observation.status &&
        sameOutputReference existing.output observation.output then
      Except.ok state
    else do
      assertNodeTransition existing.status observation.status
      pure state
  else if existing.status == .waiting && existing.resumeAt.isSome then
    fail .transitionInvalid "ordinary waiting invocation must resume before terminal settlement"
  else do
    assertNodeTransition existing.status observation.status
    let completed :=
      { existing.withStatus observation.status with
        output := observation.output <|> existing.output }
    let settled := state.setInvocation completed
    match nodeEventName observation.status with
    | none =>
        fail .checkpointInvalid ("missing event mapping for " ++ observation.status.text)
    | some eventName =>
        let drafted :=
          if observation.coordinatorDerived then
            settled.addDraft
              (transitionEvent eventName occurredAt (some completed) observation.reasonCode)
          else settled
        match observation.failure with
        | some failure =>
            if observation.status == .failed then
              selectFailureHandler drafted completed failure occurredAt
            else pure drafted
        | none => pure drafted

def requireInvocation (state : WorkflowTransition) (invocationKey : String) :
    EngineResult InvocationState :=
  match state.invocations.get? invocationKey with
  | none => fail .checkpointInvalid ("unknown invocation " ++ invocationKey)
  | some existing => Except.ok existing

/-!
## Batches of observations
-/

def applyControlFacts (state : WorkflowTransition) (observations : List WorkflowObservation) :
    WorkflowTransition :=
  { state with
    cancelRequested := state.cancelRequested || observations.contains .cancelRequested }

/-- A waiting run runs again when one of its waits resumes. -/
def WorkflowTransition.resumeRun (state : WorkflowTransition) : WorkflowTransition :=
  if state.runStatus == .waiting then { state with runStatus := .running } else state

def applyDueResumption (state : WorkflowTransition) (due : DueResumption) :
    EngineResult WorkflowTransition :=
  if state.cancelRequested || state.deadlineExpired then Except.ok state
  else do
    let existing ← requireInvocation state due.invocationKey
    if existing.status == .ready || existing.status == .running then pure state
    else
      assertNodeTransition existing.status .ready
      let resumed ← resumedInvocation existing
      pure <| WorkflowTransition.resumeRun <|
        (state.setInvocation resumed).addDraft
          (transitionEvent .nodeReady due.occurredAt (some resumed))

def startRun (state : WorkflowTransition) (occurredAt : Timestamp) : WorkflowTransition :=
  if state.runStatus == .queued && !state.cancelRequested && !state.deadlineExpired then
    { state with runStatus := .running }.addDraft (transitionEvent .runStarted occurredAt)
  else state

def applyObservation (occurredAt : Timestamp) (state : WorkflowTransition) :
    WorkflowObservation -> EngineResult WorkflowTransition
  | .cursorOnly => Except.ok state
  | .cancelRequested => Except.ok state
  | .joinDeclared fact => applyJoinDeclaration state fact
  | .branchDisposition fact => applyBranchDisposition state fact
  | .branchSelected fact => applyBranchSelection state fact
  | .loopStarted fact => applyLoopStart state fact occurredAt
  | .loopIterationCompleted fact => applyLoopCompletion state fact occurredAt
  | .callStarted invocationKey => do
      let existing ← requireInvocation state invocationKey
      applyDeclarationStart state existing .workflowCall occurredAt
  | .taskStarted invocationKey => do
      let existing ← requireInvocation state invocationKey
      applyDeclarationStart state existing .humanTask occurredAt
  | .wait fact => do
      let existing ← requireInvocation state fact.invocationKey
      applyWait state existing fact occurredAt
  | .outcome fact => do
      let existing ← requireInvocation state fact.invocationKey
      applyTerminalObservation state existing fact occurredAt

def applyWorkflowObservations (state : WorkflowTransition)
    (dueResumptions : List DueResumption) (observations : List WorkflowObservation)
    (occurredAt : Timestamp) : EngineResult WorkflowTransition := do
  let resumed ← dueResumptions.foldlM applyDueResumption (applyControlFacts state observations)
  observations.foldlM (applyObservation occurredAt) (startRun resumed occurredAt)

end Engine
end Pertexo
