import Pertexo.Engine.Checkpoint
import Pertexo.Engine.Transition

/-!
# Checkpoints of an executable

## Failure handling
-/

namespace Pertexo
namespace Engine

open Library
open Values

def identityError {α : Type} (message : String) : EngineResult α :=
  fail .workflowIdentityInvalid message

def assertIdentity (condition : Bool) (message : String) : EngineResult Unit :=
  assertThat condition .workflowIdentityInvalid message

def routeBySource (routes : List ExecutionFailureRoute) (nodeId : String) :
    Option ExecutionFailureRoute :=
  routes.reverse.find? fun route => route.sourceNodeId == nodeId

def handlerOwner (routes : List ExecutionFailureRoute) (nodeId : String) : Option String :=
  (routes.reverse.find? fun route => route.handlerNodeIds.contains nodeId).map
    ExecutionFailureRoute.sourceNodeId

def isDisabledRootNode (executable : CompiledWorkflowExecutable) (nodeId : String) : Bool :=
  (executable.graph.nodes.find? fun node => node.record.id == nodeId).any fun node =>
    node.record.disabled

def assertSelectedFailure (executable : CompiledWorkflowExecutable)
    (checkpoint : WorkflowCheckpoint) (byKey : InvocationMap) (invocation : InvocationState)
    (handling : FailureHandling) : EngineResult Unit := do
  assertIdentity (!isDisabledRootNode executable invocation.nodeId)
    "disabled source cannot select a handler"
  let selected ← isSelectedFailureScope invocation checkpoint.workflowVersionId byKey
    checkpoint.branchSelections
  assertIdentity selected "selected failure is not in its executed choice scope"
  let route := routeBySource executable.failureRoutes invocation.nodeId
  let expectedSink ←
    match route with
    | none => pure none
    | some found => do
        let key ← scopedInvocationKey checkpoint.workflowVersionId found.sinkNodeId
          invocation.branchPath invocation.iterationPath
        pure (some key)
  let sinkSucceeded := (byKey.get? handling.sinkInvocationKey).any fun sink =>
    sink.status == .succeeded
  assertIdentity
    (expectedSink == some handling.sinkInvocationKey &&
      (handling.disposition != .handled || sinkSucceeded))
    "failure handling disagrees with its pinned route or sink"
  let completed ←
    if sinkSucceeded || handling.disposition == .handled then
      match route with
      | none => pure false
      | some found =>
          isCompletedFailureHandler invocation found.handlerNodeIds
            checkpoint.workflowVersionId byKey
    else pure true
  assertIdentity completed "handled failure requires the complete selected handler chain"

def assertOptionalFailure (executable : CompiledWorkflowExecutable)
    (checkpoint : WorkflowCheckpoint) (byKey : InvocationMap) (invocation : InvocationState) :
    EngineResult Unit :=
  match invocation.failureHandling with
  | none => Except.ok ()
  | some handling => assertSelectedFailure executable checkpoint byKey invocation handling

def assertHandlerStep (executable : CompiledWorkflowExecutable)
    (checkpoint : WorkflowCheckpoint) (byKey : InvocationMap) (invocation : InvocationState) :
    EngineResult Unit :=
  match handlerOwner executable.failureRoutes invocation.nodeId with
  | none => Except.ok ()
  | some ownerNodeId => do
      let ownerKey ← scopedInvocationKey checkpoint.workflowVersionId ownerNodeId
        invocation.branchPath invocation.iterationPath
      let ownerSelected := (byKey.get? ownerKey).any fun owner => owner.failureHandling.isSome
      if invocation.status == .skipped then
        assertIdentity (!ownerSelected) "selected handler cannot contain skipped steps"
      else
        assertIdentity ownerSelected "active handler has no selected source failure"

def assertFailureCheckpoint (checkpoint : WorkflowCheckpoint)
    (executable : CompiledWorkflowExecutable) : EngineResult Unit :=
  if executable.failureRoutes.isEmpty &&
      checkpoint.invocations.all (fun invocation => invocation.failureHandling.isNone) then
    Except.ok ()
  else
    let byKey := Keyed.ofList checkpoint.invocations
    checkpoint.invocations.forM fun invocation => do
      assertOptionalFailure executable checkpoint byKey invocation
      assertHandlerStep executable checkpoint byKey invocation

/-!
## Joins
-/

def mergeConfigOf (node : NodeRecord) : Option MergeConfig :=
  match node.control with
  | some (.merge config) => some config
  | _ => none

def pairedBranchIds (nodes : NodeIndex) (config : MergeConfig) : Option (List String) :=
  match nodes.get? config.parallelNodeId with
  | none => none
  | some parallel => configuredParallelOutputPorts parallel.record

def assertCheckpointJoinIdentity (checkpoint : WorkflowCheckpoint) (nodes : NodeIndex)
    (join : JoinState) : EngineResult Unit :=
  match (nodes.get? join.joinId).bind fun merge => mergeConfigOf merge.record with
  | none => identityError "checkpoint join does not belong to a Merge node"
  | some config =>
      match pairedBranchIds nodes config with
      | none => identityError "checkpoint join disagrees with its paired Parallel"
      | some branchIds => do
          assertIdentity
            (join.ledger.length == branchIds.length &&
              join.ledger.all fun entry => branchIds.contains entry.branchId)
            "checkpoint join disagrees with its paired Parallel"
          let expectedJoinKey ← scopedInvocationKey checkpoint.workflowVersionId join.joinId
            (some join.branchPath) (some join.iterationPath)
          assertIdentity (join.joinInvocationKey == expectedJoinKey)
            "checkpoint join scope is invalid"

/-!
## Invocations
-/

def isCallOutput : Option OutputReference -> Bool
  | some (.call _) => true
  | _ => false

def isTaskOutput : Option OutputReference -> Bool
  | some (.task _) => true
  | _ => false

def ownsCall (invocation : InvocationState) : Bool :=
  invocation.waitKind == some .workflowCall || isCallOutput invocation.output

def ownsTask (invocation : InvocationState) : Bool :=
  invocation.waitKind == some .humanTask || isTaskOutput invocation.output

/-- The loops of an iteration path are the loops around the step. -/
def scopeMatchesAncestors (graph : ExecutableGraph) (nodeId : String)
    (iterationPath : IterationPath) : Bool :=
  match findExecutableNodeContext graph nodeId with
  | none => false
  | some context => iterationPath.map IterationScopePart.loopNodeId == context.ancestors

def branchPartIsKnown (nodes : NodeIndex) (part : BranchScopePart) : Bool :=
  match nodes.get? part.nodeId with
  | none => false
  | some node =>
      match configuredScopedOutputPorts node.record with
      | none => false
      | some outputPorts => outputPorts.contains part.outputPort

def assertInvocationBelongsToExecutable (checkpoint : WorkflowCheckpoint)
    (executable : CompiledWorkflowExecutable) (nodes : NodeIndex)
    (invocation : InvocationState) : EngineResult Unit :=
  let message := "checkpoint invocation does not belong to the executable graph"
  match nodes.get? invocation.nodeId with
  | none => identityError message
  | some node => do
      assertIdentity
        ((!ownsCall invocation || isWorkflowCallDefinition node.record.definition) &&
          (!ownsTask invocation || isPendingTaskNode node.record)) message
      assertIdentity
        (scopeMatchesAncestors executable.graph invocation.nodeId
          (invocation.iterationPath.getD [])) message
      assertIdentity ((invocation.branchPath.getD []).all (branchPartIsKnown nodes)) message
      let expectedKey ← scopedInvocationKey checkpoint.workflowVersionId invocation.nodeId
        invocation.branchPath invocation.iterationPath
      assertIdentity (invocation.invocationKey == expectedKey) message

/-- The first loop that declares the iteration part of an invocation. -/
def declaredLoopOf (loops : List LoopState) (invocation : InvocationState)
    (part : IterationScopePart) (index : Nat) : Option LoopState :=
  loops.find? fun loop =>
    loop.loopId == part.loopNodeId &&
      loop.iterationPath == (invocation.iterationPath.getD []).take index &&
      branchPathHasPrefix invocation.branchPath (some loop.branchPath)

def assertIterationPart (loops : List LoopState) (invocation : InvocationState)
    (indexed : IterationScopePart × Nat) : EngineResult Unit :=
  assertIdentity
    ((declaredLoopOf loops invocation indexed.fst indexed.snd).any fun loop =>
      loop.activeOrdinals.contains indexed.fst.ordinal ||
        loop.terminalOrdinals.contains indexed.fst.ordinal)
    "checkpoint invocation iteration scope is not active in its declared loop"

def assertInvocationIterationScopes (checkpoint : WorkflowCheckpoint)
    (invocation : InvocationState) : EngineResult Unit :=
  (invocation.iterationPath.getD []).zipIdx.forM
    (assertIterationPart checkpoint.loops invocation)

/-!
## Loops
-/

def isForEachDefinition (definition : NodeDefinition) : Bool :=
  definition.key == "core.foreach" && definition.version == 1

def assertCheckpointLoopIdentity (checkpoint : WorkflowCheckpoint) (nodes : NodeIndex)
    (loop : LoopState) : EngineResult Unit :=
  let message := "checkpoint loop does not belong to its scoped For Each control"
  match nodes.get? loop.loopId with
  | none => identityError message
  | some node =>
      match node.structured with
      | none => identityError message
      | some structured => do
          assertIdentity (isForEachDefinition node.record.definition) message
          let expectedKey ← scopedInvocationKey checkpoint.workflowVersionId loop.loopId
            (some loop.branchPath) (some loop.iterationPath)
          assertIdentity (loop.controlInvocationKey == expectedKey) message
          assertIdentity
            (loop.maxIterations == structured.maxIterations &&
              loop.maxConcurrency == structured.maxConcurrency &&
              loop.bodyRootNodeIds == bodyRootNodeIds structured.body &&
              some loop.bodySinkNodeId == bodySinkNodeId structured.body)
            "checkpoint loop topology or bounds disagree with the executable"

def assertCheckpointMatchesExecutable (checkpoint : WorkflowCheckpoint)
    (executable : CompiledWorkflowExecutable) : EngineResult Unit := do
  let nodes := nodesById executable
  assertFailureCheckpoint checkpoint executable
  checkpoint.joins.forM (assertCheckpointJoinIdentity checkpoint nodes)
  checkpoint.invocations.forM fun invocation => do
    assertInvocationBelongsToExecutable checkpoint executable nodes invocation
    assertInvocationIterationScopes checkpoint invocation
  assertIdentity
    (checkpoint.admittedInvocationKeys.all fun key =>
      checkpoint.invocations.any fun invocation => invocation.invocationKey == key)
    "checkpoint admission does not belong to an executable invocation"
  checkpoint.loops.forM (assertCheckpointLoopIdentity checkpoint nodes)

end Engine
end Pertexo
