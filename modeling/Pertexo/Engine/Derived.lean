import Pertexo.Engine.Transition

/-!
# Derived transitions

## Readiness
-/

namespace Pertexo
namespace Engine

open Library
open Values

def decisionEvent (disposition : NodeStatus) : EngineEventName :=
  if disposition == .ready then .nodeReady else .nodeSkipped

def materializeWithEvent (state : WorkflowTransition) (invocation : InvocationState)
    (occurredAt : Timestamp) : WorkflowTransition :=
  (state.materialize invocation).addDraft
    (transitionEvent (decisionEvent invocation.status) occurredAt (some invocation))

def rootInvocation (decision : ReadyNodeDecision) : InvocationState :=
  { invocationKey := decision.invocationKey
    nodeId := decision.nodeId
    status := decision.disposition
    attemptNumber := 0
    branchPath := decision.branchPath }

def rootReadinessInput (state : WorkflowTransition) : DeriveReadyNodesInput :=
  { level := state.graph.level
    failureRoutes := state.graph.failureRoutes
    workflowVersionId := state.current.workflowVersionId
    invocations := state.invocations.items
    branchSelections := state.branchSelections }

def materializeRootDecision (coordinatorNodeIds : List String) (occurredAt : Timestamp)
    (state : WorkflowTransition) (decision : ReadyNodeDecision) : WorkflowTransition :=
  if coordinatorNodeIds.contains decision.nodeId then state
  else materializeWithEvent state (rootInvocation decision) occurredAt

def deriveRootReadiness (state : WorkflowTransition) (coordinatorNodeIds : List String)
    (occurredAt : Timestamp) : EngineResult WorkflowTransition :=
  if state.cancelRequested || state.deadlineExpired ||
      !(state.runStatus == .running || state.runStatus == .waiting) then
    Except.ok state
  else do
    let decisions ← deriveReadyNodes (rootReadinessInput state)
    pure (decisions.foldl (materializeRootDecision coordinatorNodeIds occurredAt) state)

def structuredBodyOf (graph : SchedulerState) (loopId : String) : Option StructuredBody :=
  graph.structuredBodies.find? fun body => body.loopNodeId == loopId

def bodyReadinessInput (state : WorkflowTransition) (body : StructuredBody) (loop : LoopState)
    (ordinal : Nat) : DeriveReadyNodesInput :=
  { level := body.level
    workflowVersionId := state.current.workflowVersionId
    invocations := state.invocations.items
    branchSelections := state.branchSelections
    branchPath := some loop.branchPath
    iterationPath := some (loop.iterationScope ordinal) }

def bodyInvocation (loop : LoopState) (ordinal : Nat) (decision : ReadyNodeDecision) :
    InvocationState :=
  { invocationKey := decision.invocationKey
    nodeId := decision.nodeId
    status := decision.disposition
    attemptNumber := 0
    branchPath := some (decision.branchPath.getD loop.branchPath)
    iterationPath := some (loop.iterationScope ordinal) }

def deriveIterationReadiness (body : StructuredBody) (loop : LoopState)
    (occurredAt : Timestamp) (state : WorkflowTransition) (ordinal : Nat) :
    EngineResult WorkflowTransition := do
  let decisions ← deriveReadyNodes (bodyReadinessInput state body loop ordinal)
  pure <| decisions.foldl
    (fun state decision =>
      materializeWithEvent state (bodyInvocation loop ordinal decision) occurredAt)
    state

def deriveBodyReadiness (occurredAt : Timestamp) (state : WorkflowTransition)
    (loop : LoopState) : EngineResult WorkflowTransition :=
  match structuredBodyOf state.graph loop.loopId with
  | none =>
      fail .checkpointInvalid ("structured body for " ++ loop.loopId ++ " is missing")
  | some body =>
      loop.activeOrdinals.foldlM (deriveIterationReadiness body loop occurredAt) state

def deriveLoopBodyReadiness (state : WorkflowTransition) (occurredAt : Timestamp) :
    EngineResult WorkflowTransition :=
  if state.cancelRequested || state.deadlineExpired then Except.ok state
  else state.loops.items.foldlM (deriveBodyReadiness occurredAt) state

/-!
## Pending joins
-/

def settleSatisfiedJoin (state : WorkflowTransition) (join : JoinState)
    (invocation : InvocationState) (selectedBranchIds : List String)
    (ledger : List BranchLedgerEntry) (occurredAt : Timestamp) : WorkflowTransition :=
  let settled := state.setJoin
    { join with ledger := ledger, selectedBranchIds := some selectedBranchIds }
  if invocation.status == .pending then
    let ready := { invocation with status := .ready }
    (settled.setInvocation ready).addDraft (transitionEvent .nodeReady occurredAt (some ready))
  else settled

def settleUnsatisfiedJoin (state : WorkflowTransition) (join : JoinState)
    (invocation : InvocationState) (reasonCode : UnsatisfiedReason)
    (ledger : List BranchLedgerEntry) (occurredAt : Timestamp) : WorkflowTransition :=
  let settled := state.setJoin
    { join with ledger := ledger, unsatisfiedReasonCode := some reasonCode }
  if invocation.status != .pending then settled
  else
    let failed := { invocation with status := .failed }
    let reasonText :=
      match reasonCode with
      | .branchFailed => "branch_failed"
      | .branchCanceled => "branch_canceled"
      | .insufficientArrivals => "insufficient_arrivals"
    ((settled.addDraft
      (transitionEvent .nodeReady occurredAt (some { invocation with status := .ready })))
      |>.setInvocation failed).addDraft
        (transitionEvent .nodeFailed occurredAt (some failed) (some reasonText))

def settlePendingJoin (occurredAt : Timestamp) (state : WorkflowTransition) (join : JoinState) :
    EngineResult WorkflowTransition :=
  if join.selectedBranchIds.isSome || join.unsatisfiedReasonCode.isSome then Except.ok state
  else do
    match ← settleJoin join.policy join.ledger with
    | .waiting => pure state
    | .satisfied selectedBranchIds ledger =>
        match state.invocations.get? join.joinInvocationKey with
        | none => fail .checkpointInvalid ("join " ++ join.joinId ++ " has no invocation")
        | some invocation =>
            pure (settleSatisfiedJoin state join invocation selectedBranchIds ledger occurredAt)
    | .unsatisfied reasonCode ledger =>
        match state.invocations.get? join.joinInvocationKey with
        | none => fail .checkpointInvalid ("join " ++ join.joinId ++ " has no invocation")
        | some invocation =>
            pure (settleUnsatisfiedJoin state join invocation reasonCode ledger occurredAt)

def settlePendingJoins (state : WorkflowTransition) (occurredAt : Timestamp) :
    EngineResult WorkflowTransition :=
  (sortWith (fun left right => compareOrdinal left.joinId right.joinId)
    state.joins.items).foldlM (settlePendingJoin occurredAt) state

/-!
## Loop iterations
-/

def completeExhaustedLoop (state : WorkflowTransition) (loop : LoopState)
    (occurredAt : Timestamp) : EngineResult WorkflowTransition :=
  if loop.nextOrdinal != loop.collectionSize || !loop.activeOrdinals.isEmpty then
    Except.ok state
  else
    match state.invocations.get? loop.controlInvocationKey with
    | none =>
        fail .checkpointInvalid ("loop " ++ loop.loopId ++ " has no parent invocation")
    | some parent =>
        if parent.status == .waiting then
          let succeeded := parent.withStatus .succeeded
          Except.ok <| (state.setInvocation succeeded).addDraft
            (transitionEvent .nodeSucceeded occurredAt (some succeeded))
        else if parent.status == .pending then
          let succeeded := { parent with status := .succeeded }
          Except.ok <|
            ((state.setInvocation succeeded).addDraft
              (transitionEvent .nodeReady occurredAt (some { parent with status := .ready })))
              |>.addDraft (transitionEvent .nodeSucceeded occurredAt (some succeeded))
        else Except.ok state

def bodyRootInvocation (state : WorkflowTransition) (loop : LoopState) (ordinal : Nat)
    (nodeId invocationKey : String) : InvocationState :=
  { invocationKey := invocationKey
    nodeId := nodeId
    status := if schedulerNodeDisabled state.schedulerNodes nodeId then .skipped else .ready
    attemptNumber := 0
    branchPath := some loop.branchPath
    iterationPath := some (loop.iterationScope ordinal) }

def admitBodyRoot (loop : LoopState) (ordinal : Nat) (occurredAt : Timestamp)
    (state : WorkflowTransition) (nodeId : String) : EngineResult WorkflowTransition := do
  let iterationKey ← scopedInvocationKey state.current.workflowVersionId nodeId
    (some loop.branchPath) (some (loop.iterationScope ordinal))
  assertThat (!state.invocations.has iterationKey) .loopStateInvalid
    ("loop body root " ++ iterationKey ++ " was admitted twice")
  pure (materializeWithEvent state (bodyRootInvocation state loop ordinal nodeId iterationKey)
    occurredAt)

def admitIteration (loop : LoopState) (occurredAt : Timestamp) (state : WorkflowTransition)
    (ordinal : Nat) : EngineResult WorkflowTransition :=
  loop.bodyRootNodeIds.foldlM (admitBodyRoot loop ordinal occurredAt) state

def advanceLoop (occurredAt : Timestamp) (state : WorkflowTransition) (loop : LoopState) :
    EngineResult WorkflowTransition := do
  assertLoopInvocations loop state.invocations.items
  if loop.terminalStatus.isSome then pure state
  else
    let admission ← admitLoopIterations loop
    let admitted ← admission.admittedOrdinals.foldlM (admitIteration loop occurredAt)
      (state.setLoop admission.loop)
    completeExhaustedLoop admitted admission.loop occurredAt

def loopsByControlKey (state : WorkflowTransition) : List LoopState :=
  sortWith
    (fun left right => compareOrdinal left.controlInvocationKey right.controlInvocationKey)
    state.loops.items

def advanceLoopIterations (state : WorkflowTransition) (occurredAt : Timestamp) :
    EngineResult WorkflowTransition :=
  if state.cancelRequested || state.deadlineExpired then Except.ok state
  else (loopsByControlKey state).foldlM (advanceLoop occurredAt) state

/-- The passes that run before the loops admit their next iterations. -/
def deriveReadinessAndJoins (state : WorkflowTransition) (coordinatorNodeIds : List String)
    (occurredAt : Timestamp) : EngineResult WorkflowTransition := do
  let rooted ← deriveRootReadiness state coordinatorNodeIds occurredAt
  let bodies ← deriveLoopBodyReadiness rooted occurredAt
  settlePendingJoins bodies occurredAt

end Engine
end Pertexo
