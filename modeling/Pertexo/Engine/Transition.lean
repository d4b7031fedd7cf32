import Pertexo.Engine.Readiness
import Pertexo.Engine.Scheduling

/-!
# The state of a transition

A transition works on the records of one checkpoint, indexed by their keys.
-/

namespace Pertexo
namespace Engine

open Library
open Values

structure SchedulerNodeEntry where
  node : NodeRecord
  containingLoopId : Option String := none
deriving DecidableEq

abbrev SchedulerNodeLookup := Keyed SchedulerNodeEntry fun entry => entry.node.id
abbrev InvocationMap := Keyed InvocationState InvocationState.invocationKey
abbrev JoinMap := Keyed JoinState JoinState.joinInvocationKey
abbrev LoopMap := Keyed LoopState LoopState.controlInvocationKey

structure WorkflowTransition where
  current : WorkflowCheckpoint
  graph : SchedulerState
  schedulerNodes : SchedulerNodeLookup
  invocations : InvocationMap
  joins : JoinMap
  loops : LoopMap
  branchSelections : List BranchSelection
  remainingIterationBudget : Nat
  failureValues : List FailureValuePlan := []
  eventDrafts : List EngineEventDraft := []
  nodeRunAdmissionKeys : List String := []
  cancelRequested : Bool
  deadlineExpired : Bool
  deadlineOccurredAt : Option Timestamp
  runStatus : RunStatus

def indexTransitionNodes (graph : SchedulerState) : SchedulerNodeLookup :=
  Keyed.ofList <|
    graph.level.nodes.map (fun node => { node := node }) ++
      graph.structuredBodies.flatMap fun body =>
        body.level.nodes.map fun node =>
          { node := node, containingLoopId := some body.loopNodeId }

def transitionEvent (name : EngineEventName) (occurredAt : Timestamp)
    (invocation : Option InvocationState := none) (reasonCode : Option String := none)
    (dueAt : Option Timestamp := none) : EngineEventDraft :=
  { name := name
    occurredAt := occurredAt
    invocationKey := invocation.map InvocationState.invocationKey
    nodeId := invocation.map InvocationState.nodeId
    attemptNumber := invocation.map InvocationState.attemptNumber
    reasonCode := reasonCode
    dueAt := dueAt }

namespace WorkflowTransition

def setInvocation (state : WorkflowTransition) (invocation : InvocationState) :
    WorkflowTransition :=
  { state with invocations := state.invocations.set invocation }

def addDraft (state : WorkflowTransition) (draft : EngineEventDraft) : WorkflowTransition :=
  { state with eventDrafts := state.eventDrafts ++ [draft] }

/-- A new invocation is stored and recorded for admission as a node run. -/
def materialize (state : WorkflowTransition) (invocation : InvocationState) :
    WorkflowTransition :=
  { state with
    invocations := state.invocations.set invocation
    nodeRunAdmissionKeys := addMark state.nodeRunAdmissionKeys invocation.invocationKey }

def setJoin (state : WorkflowTransition) (join : JoinState) : WorkflowTransition :=
  { state with joins := state.joins.set join }

def setLoop (state : WorkflowTransition) (loop : LoopState) : WorkflowTransition :=
  { state with loops := state.loops.set loop }

end WorkflowTransition

/-!
## Scopes and declarations
-/

def loopFinishesScope (branchPath : Option BranchPath) (iterationPath : Option IterationPath)
    (loop : LoopState) : Bool :=
  match (iterationPath.getD [])[loop.iterationPath.length]? with
  | none => false
  | some part =>
      part.loopNodeId == loop.loopId &&
        iterationPathHasPrefix iterationPath loop.iterationPath &&
        branchPathHasPrefix branchPath (some loop.branchPath) &&
        (part.ordinal < loop.completedPrefix || loop.terminalOrdinals.contains part.ordinal)

def isFinishedIterationScope (loops : List LoopState) (branchPath : Option BranchPath)
    (iterationPath : Option IterationPath) : Bool :=
  loops.any (loopFinishesScope branchPath iterationPath)

def declaredJoin (observation : JoinDeclaredObservation) : EngineResult JoinState :=
  if observation.joinId == "" then fail .joinInvalid "join ID is required"
  else
    let branchIds := sortOrdinal observation.branchIds
    if branchIds.isEmpty || branchIds.contains "" || !decide branchIds.Nodup then
      fail .joinInvalid "a join requires unique non-empty branches"
    else
      let invalidCountPolicy :=
        match observation.policy with
        | .count count => count == 0 || branchIds.length < count
        | _ => false
      if invalidCountPolicy then fail .joinInvalid "count join exceeds declared branches"
      else
        Except.ok
          { joinInvocationKey := observation.joinInvocationKey
            joinId := observation.joinId
            branchPath := observation.branchPath
            iterationPath := observation.iterationPath
            policy := observation.policy
            ledger := branchIds.map fun branchId =>
              { branchId := branchId, disposition := .pending } }

def sameJoinDeclaration (left right : JoinState) : Bool :=
  left.joinInvocationKey == right.joinInvocationKey && left.joinId == right.joinId &&
    left.branchPath == right.branchPath && left.iterationPath == right.iterationPath &&
    left.policy == right.policy &&
    left.ledger.map BranchLedgerEntry.branchId == right.ledger.map BranchLedgerEntry.branchId

def sameLoopDeclaration (left right : LoopState) : Bool :=
  left.controlInvocationKey == right.controlInvocationKey && left.loopId == right.loopId &&
    left.branchPath == right.branchPath && left.iterationPath == right.iterationPath &&
    left.bodySinkNodeId == right.bodySinkNodeId &&
    left.bodyRootNodeIds == right.bodyRootNodeIds && left.collection == right.collection &&
    left.collectionChecksum == right.collectionChecksum &&
    left.collectionSize == right.collectionSize && left.maxIterations == right.maxIterations &&
    left.maxConcurrency == right.maxConcurrency

/-!
## Scheduler lookups
-/

def schedulerNodeSideEffectClass (schedulerNodes : SchedulerNodeLookup) (nodeId : String) :
    EngineResult SideEffectClass :=
  match schedulerNodes.get? nodeId with
  | none => fail .checkpointInvalid ("scheduler node " ++ nodeId ++ " is missing")
  | some entry => Except.ok entry.node.sideEffectClass

/-- A read-only config narrows only the attempt; the node keeps its pinned class. -/
def schedulerAttemptSideEffectClass (schedulerNodes : SchedulerNodeLookup) (nodeId : String) :
    EngineResult SideEffectClass := do
  let pinned ← schedulerNodeSideEffectClass schedulerNodes nodeId
  match schedulerNodes.get? nodeId with
  | some entry => pure (if entry.node.readOnlyAttempts then .safe else pinned)
  | none => pure pinned

def schedulerNodeDisabled (schedulerNodes : SchedulerNodeLookup) (nodeId : String) : Bool :=
  match schedulerNodes.get? nodeId with
  | some entry => entry.node.disabled
  | none => false

/-!
## Invocations of one iteration
-/

def inIteration (loop : LoopState) (ordinal : Nat) (invocation : InvocationState) : Bool :=
  sameIterationPath invocation.iterationPath (some (loop.iterationScope ordinal)) &&
    branchPathHasPrefix invocation.branchPath (some loop.branchPath)

def scopedLoopSinkInvocation (loop : LoopState) (ordinal : Nat)
    (invocations : List InvocationState) : EngineResult (Option InvocationState) :=
  match invocations.filter fun candidate =>
      candidate.nodeId == loop.bodySinkNodeId && inIteration loop ordinal candidate with
  | [] => Except.ok none
  | [sink] => Except.ok (some sink)
  | _ => fail .checkpointInvalid "loop sink has multiple scoped invocations"

def assertActiveIteration (loop : LoopState) (invocations : List InvocationState)
    (ordinal : Nat) : EngineResult Unit :=
  assertThat (invocations.any (inIteration loop ordinal)) .checkpointInvalid
    ("active loop iteration " ++ loop.loopId ++ ":" ++ toString ordinal ++ " is inconsistent")

def assertTerminalIteration (loop : LoopState) (invocations : List InvocationState)
    (ordinal : Nat) : EngineResult Unit :=
  if !invocations.any (inIteration loop ordinal) then Except.ok ()
  else do
    let invocation ←
      match loop.terminalStatus with
      | none => scopedLoopSinkInvocation loop ordinal invocations
      | some terminalStatus =>
          pure <| invocations.find? fun candidate =>
            inIteration loop ordinal candidate && candidate.status == terminalStatus
    assertThat (invocation.any fun found => isTerminalNodeStatus found.status)
      .checkpointInvalid
      ("terminal loop iteration " ++ loop.loopId ++ ":" ++ toString ordinal ++
        " is inconsistent")

def assertLoopInvocations (loop : LoopState) (invocations : List InvocationState) :
    EngineResult Unit := do
  loop.activeOrdinals.forM (assertActiveIteration loop invocations)
  loop.terminalOrdinals.forM (assertTerminalIteration loop invocations)

/-!
## Failure routing

A failed step with a failure route selects its handler steps. The failure is
handled once the whole handler chain has succeeded.
-/

/-- A handler inherits an executed choice, never an unselected sibling scope. -/
def isSelectedFailureScope (source : InvocationState) (workflowVersionId : String)
    (invocations : InvocationMap) (selections : List BranchSelection) : EngineResult Bool :=
  let branchPath := source.branchPath.getD []
  if (source.iterationPath.getD []).length != 0 then Except.ok false
  else
    branchPath.zipIdx.allM fun (part, index) => do
      let parentKey ← scopedInvocationKey workflowVersionId part.nodeId
        (some (branchPath.take index)) (some [])
      match invocations.get? parentKey with
      | none => pure false
      | some parent =>
          pure <|
            parent.status == .succeeded && parent.output.isSome &&
              selections.any fun selection =>
                selection.invocationKey == parentKey && selection.nodeId == part.nodeId &&
                  selection.selectedOutputPort == part.outputPort

def isCompletedFailureHandler (source : InvocationState) (handlerNodeIds : List String)
    (workflowVersionId : String) (invocations : InvocationMap) : EngineResult Bool :=
  handlerNodeIds.allM fun nodeId => do
    let key ← scopedInvocationKey workflowVersionId nodeId source.branchPath source.iterationPath
    match invocations.get? key with
    | none => pure false
    | some handler => pure (handler.status == .succeeded)

def failureRouteOf (graph : SchedulerState) (nodeId : String) : Option ExecutionFailureRoute :=
  (graph.failureRoutes.getD []).find? fun route => route.sourceNodeId == nodeId

def selectFailureHandler (state : WorkflowTransition) (source : InvocationState)
    (failure : WorkflowNodeFailureValue) (occurredAt : Timestamp) :
    EngineResult WorkflowTransition :=
  if state.cancelRequested || state.deadlineExpired then Except.ok state
  else
    match failureRouteOf state.graph source.nodeId with
    | none => Except.ok state
    | some route => do
        let selected ← isSelectedFailureScope source state.current.workflowVersionId
          state.invocations state.branchSelections
        assertThat selected .observationInvalid
          "failure source is not in its executed choice scope"
        assertThat
          (failure.invocationKey == source.invocationKey && failure.nodeId == source.nodeId &&
            failure.attemptNumber == source.attemptNumber)
          .observationInvalid "failure evidence disagrees with its source"
        let sinkInvocationKey ← scopedInvocationKey state.current.workflowVersionId
          route.sinkNodeId source.branchPath source.iterationPath
        let entryInvocationKey ← scopedInvocationKey state.current.workflowVersionId
          route.entryNodeId source.branchPath source.iterationPath
        let routed := state.setInvocation
          { source with
            failureHandling :=
              some { sinkInvocationKey := sinkInvocationKey, disposition := .pending } }
        let failureValue : FailureValuePlan :=
          { value := failure, entryInvocationKey := entryInvocationKey }
        let valued := { routed with failureValues := routed.failureValues ++ [failureValue] }
        pure <| valued.addDraft <|
          transitionEvent .nodeFailureRouted occurredAt (some source) (some failure.safeErrorCode)

def settleFailureHandler (occurredAt : Timestamp) (state : WorkflowTransition)
    (source : InvocationState) : EngineResult WorkflowTransition :=
  match source.failureHandling with
  | none => Except.ok state
  | some handling =>
      if handling.disposition != .pending || state.cancelRequested || state.deadlineExpired then
        Except.ok state
      else if !(state.invocations.get? handling.sinkInvocationKey).any fun sink =>
          sink.status == .succeeded then
        Except.ok state
      else do
        let completed ←
          match failureRouteOf state.graph source.nodeId with
          | none => pure false
          | some route =>
              isCompletedFailureHandler source route.handlerNodeIds
                state.current.workflowVersionId state.invocations
        assertThat completed .checkpointInvalid
          "selected handler sink completed without its chain"
        let handled := state.setInvocation
          { source with failureHandling := some { handling with disposition := .handled } }
        pure (handled.addDraft (transitionEvent .nodeFailureHandled occurredAt (some source)))

def settleFailureHandlers (state : WorkflowTransition) (occurredAt : Timestamp) :
    EngineResult WorkflowTransition :=
  state.invocations.items.foldlM (settleFailureHandler occurredAt) state

end Engine
end Pertexo
