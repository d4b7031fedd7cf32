import Pertexo.Engine.Executable
import Pertexo.Engine.Execution
import Pertexo.Library.Results
import Pertexo.Library.Sorting

/-!
# Readiness of steps

## Graph indexes

The scheduler looks at one level of the executable. A step that is not on the
level has no neighbours.
-/

namespace Pertexo
namespace Engine

open Library
open Values

def nodeById (level : SchedulerLevel) : Keyed NodeRecord NodeRecord.id :=
  Keyed.ofList level.nodes

def predecessors (level : SchedulerLevel) (nodeId : String) : List String :=
  (level.edges.filter fun edge => edge.target.nodeId == nodeId).map fun edge =>
    edge.source.nodeId

def adjacency (level : SchedulerLevel) (nodeId : String) : List String :=
  if level.nodes.any fun node => node.id == nodeId then
    (level.edges.filter fun edge => edge.source.nodeId == nodeId).map fun edge =>
      edge.target.nodeId
  else []

def mergeNodeIds (level : SchedulerLevel) : List String :=
  (level.nodes.filter fun node => isCoreMergeDefinition node.definition).map NodeRecord.id

/-- The Parallel step on the same level that a Merge step names as its pair. -/
def pairedParallelOf (level : SchedulerLevel) (node : NodeRecord) : Option String :=
  if isCoreMergeDefinition node.definition then
    match configuredPairedParallelId node with
    | none => none
    | some parallelNodeId =>
        match (nodeById level).get? parallelNodeId with
        | none => none
        | some parallel =>
            if isCoreParallelDefinition parallel.definition then some parallel.id else none
  else none

def pairedMergeByParallel (level : SchedulerLevel) (parallelId : String) : Option String :=
  (level.nodes.reverse.find? fun node => pairedParallelOf level node == some parallelId).map
    NodeRecord.id

def pairedParallelByMerge (level : SchedulerLevel) (mergeId : String) : Option String :=
  level.nodes.reverse.findSome? fun node =>
    if node.id == mergeId then pairedParallelOf level node else none

def descendantsFrom (neighbours : String -> List String) (boundaries : List String) :
    Nat -> List String -> List String -> List String
  | 0, _, reached => reached
  | _ + 1, [], reached => reached
  | fuel + 1, nodeId :: pending, reached =>
      if reached.contains nodeId || boundaries.contains nodeId then
        descendantsFrom neighbours boundaries fuel pending reached
      else
        descendantsFrom neighbours boundaries fuel
          ((neighbours nodeId).reverse ++ pending) (reached ++ [nodeId])

/--
Steps reachable from the roots, not crossing or including the boundaries. Every
link is followed at most once, so the fuel covers every step that is put on hold.
-/
def descendants (level : SchedulerLevel) (roots boundaries : List String) : List String :=
  descendantsFrom (adjacency level) boundaries (roots.length + level.edges.length + 1)
    roots.reverse []

/-!
## Indexed invocations
-/

structure DeriveReadyNodesInput where
  level : SchedulerLevel
  failureRoutes : Option (List ExecutionFailureRoute) := none
  workflowVersionId : String
  invocations : List InvocationState
  branchSelections : List BranchSelection
  branchPath : Option BranchPath := none
  iterationPath : Option IterationPath := none

structure ReadyNodeDecision where
  invocationKey : String
  nodeId : String
  disposition : NodeStatus
  branchPath : Option BranchPath
  iterationPath : Option IterationPath
deriving DecidableEq, Repr

structure SchedulerIndexes where
  invocationByKey : Keyed InvocationState InvocationState.invocationKey
  invocationByNode : Keyed InvocationState InvocationState.nodeId
  localSelections : List BranchSelection

structure SchedulerMarks where
  blocked : List String := []
  skipped : List String := []
  branchPathByNode : Keyed (String × BranchPath) Prod.fst := Keyed.empty

def matchesSchedulerScope (input : DeriveReadyNodesInput) (invocation : InvocationState) :
    Bool :=
  sameIterationPath invocation.iterationPath input.iterationPath &&
    branchPathHasPrefix invocation.branchPath input.branchPath

def indexInvocation (workflowVersionId : String)
    (index : Keyed InvocationState InvocationState.nodeId) (invocation : InvocationState) :
    EngineResult (Keyed InvocationState InvocationState.nodeId) := do
  let key ← scopedInvocationKey workflowVersionId invocation.nodeId invocation.branchPath
    invocation.iterationPath
  let isRoot := invocation.invocationKey == key
  if !index.has invocation.nodeId || isRoot then pure (index.set invocation)
  else pure index

def indexInvocations (input : DeriveReadyNodesInput) : EngineResult SchedulerIndexes := do
  let invocationByKey := Keyed.ofList input.invocations
  let localSelections := input.branchSelections.filter fun selection =>
    (nodeById input.level).has selection.nodeId &&
      match invocationByKey.get? selection.invocationKey with
      | some invocation => matchesSchedulerScope input invocation
      | none => false
  let invocationByNode ←
    (input.invocations.filter (matchesSchedulerScope input)).foldlM
      (indexInvocation input.workflowVersionId) Keyed.empty
  pure
    { invocationByKey := invocationByKey
      invocationByNode := invocationByNode
      localSelections := localSelections }

def branchSelectionIsValid (input : DeriveReadyNodesInput) (indexes : SchedulerIndexes)
    (selection : BranchSelection) : Bool :=
  match (nodeById input.level).get? selection.nodeId,
      indexes.invocationByKey.get? selection.invocationKey with
  | some node, some invocation =>
      match configuredBranchOutputPorts node with
      | some outputPorts =>
          invocation.nodeId == selection.nodeId && invocation.status == .succeeded &&
            invocation.output.isSome && outputPorts.contains selection.selectedOutputPort
      | none => false
  | _, _ => false

def validateBranchSelections (input : DeriveReadyNodesInput) (indexes : SchedulerIndexes) :
    EngineResult Unit :=
  assertThat (indexes.localSelections.all (branchSelectionIsValid input indexes))
    .checkpointInvalid "branch selection disagrees with the pinned node contract"

/-!
## Marks

Completed control steps mark the steps below their ports: blocked, skipped, or
running under a branch path.
-/

def addMark (marked : List String) (nodeId : String) : List String :=
  if marked.contains nodeId then marked else marked ++ [nodeId]

def rememberBranchPath (marks : SchedulerMarks) (nodeId : String) (branchPath : BranchPath) :
    SchedulerMarks :=
  match marks.branchPathByNode.get? nodeId with
  | some known =>
      if known.snd.length < branchPath.length then
        { marks with branchPathByNode := marks.branchPathByNode.set (nodeId, branchPath) }
      else marks
  | none => { marks with branchPathByNode := marks.branchPathByNode.set (nodeId, branchPath) }

def markSkipped (marks : SchedulerMarks) (nodeId : String) : SchedulerMarks :=
  { marks with skipped := addMark marks.skipped nodeId }

def markBlocked (marks : SchedulerMarks) (nodeId : String) : SchedulerMarks :=
  { marks with blocked := addMark marks.blocked nodeId }

/-- Steps the selected path reaches are in `taken`; another path never skips them. -/
def markReachableDescendants (level : SchedulerLevel) (roots : List String)
    (branchPath : Option BranchPath) (skipped : Bool) (taken : List String)
    (marks : SchedulerMarks) : SchedulerMarks :=
  (descendants level roots (mergeNodeIds level)).foldl
    (fun marks nodeId =>
      if taken.contains nodeId then marks
      else
        let marked :=
          match branchPath with
          | none => markBlocked marks nodeId
          | some path => rememberBranchPath marks nodeId path
        if skipped then markSkipped marked nodeId else marked)
    marks

def targetsOf (level : SchedulerLevel) (nodeId : String) : List String :=
  (level.edges.filter fun edge => edge.source.nodeId == nodeId).map fun edge =>
    edge.target.nodeId

def portTargets (level : SchedulerLevel) (nodeId port : String) : List String :=
  (level.edges.filter fun edge => edge.source.nodeId == nodeId && edge.source.port == port).map
    fun edge => edge.target.nodeId

def markConditionalBranch (input : DeriveReadyNodesInput) (indexes : SchedulerIndexes)
    (marks : SchedulerMarks) (branchNode : NodeRecord) : SchedulerMarks :=
  match configuredBranchOutputPorts branchNode, indexes.invocationByNode.get? branchNode.id with
  | some ports, some invocation =>
      if invocation.status != .succeeded then marks
      else
        match indexes.localSelections.find? fun candidate =>
            candidate.invocationKey == invocation.invocationKey &&
              candidate.nodeId == branchNode.id with
        | none =>
            markReachableDescendants input.level (targetsOf input.level branchNode.id) none
              false [] marks
        | some selection =>
            let selected := selection.selectedOutputPort
            -- only a pending task may link two of its ports to one step
            let taken := descendants input.level
              (portTargets input.level branchNode.id selected) (mergeNodeIds input.level)
            ports.foldl
              (fun marks port =>
                markReachableDescendants input.level
                  (portTargets input.level branchNode.id port)
                  (some (invocation.branchPath.getD [] ++
                    [{ nodeId := branchNode.id, outputPort := port }]))
                  (port != selected) (if port == selected then [] else taken) marks)
              marks
  | _, _ => marks

def markConditionalBranches (input : DeriveReadyNodesInput) (indexes : SchedulerIndexes)
    (marks : SchedulerMarks) : SchedulerMarks :=
  input.level.nodes.foldl (markConditionalBranch input indexes) marks

def markParallelInvocation (input : DeriveReadyNodesInput) (parallel : NodeRecord)
    (ports : List String) (invocation : InvocationState) (marks : SchedulerMarks) :
    SchedulerMarks :=
  let skipped := invocation.status == .skipped
  let basePath := invocation.branchPath <|> (if skipped then input.branchPath else none)
  let marked := ports.foldl
    (fun marks port =>
      markReachableDescendants input.level (portTargets input.level parallel.id port)
        (some (basePath.getD [] ++ [{ nodeId := parallel.id, outputPort := port }])) skipped []
        marks)
    marks
  if !skipped then marked
  else
    match pairedMergeByParallel input.level parallel.id with
    | none => marked
    | some pairedMergeId =>
        let merged := markSkipped marked pairedMergeId
        let remembered :=
          match basePath with
          | some path => rememberBranchPath merged pairedMergeId path
          | none => merged
        markReachableDescendants input.level (targetsOf input.level pairedMergeId) basePath true
          [] remembered

def markParallelBranch (input : DeriveReadyNodesInput) (indexes : SchedulerIndexes)
    (marks : SchedulerMarks) (parallel : NodeRecord) : SchedulerMarks :=
  match configuredParallelOutputPorts parallel, indexes.invocationByNode.get? parallel.id with
  | some ports, some invocation =>
      if invocation.status == .skipped || invocation.status == .succeeded then
        markParallelInvocation input parallel ports invocation marks
      else marks
  | _, _ => marks

def markHandler (path : BranchPath) (marks : SchedulerMarks) (nodeId : String) :
    SchedulerMarks :=
  rememberBranchPath
    { marks with
      skipped := marks.skipped.filter fun other => other != nodeId
      blocked := marks.blocked.filter fun other => other != nodeId }
    nodeId path

def markSkippedUnder (path : BranchPath) (marks : SchedulerMarks) (nodeId : String) :
    SchedulerMarks :=
  rememberBranchPath (markSkipped marks nodeId) nodeId path

def markFailureRoute (indexes : SchedulerIndexes) (marks : SchedulerMarks)
    (route : ExecutionFailureRoute) : SchedulerMarks :=
  match indexes.invocationByNode.get? route.sourceNodeId with
  | some source =>
      let path := source.branchPath.getD []
      if source.failureHandling.isSome then
        route.handlerNodeIds.foldl (markHandler path)
          (route.normalSuffixNodeIds.foldl (markSkippedUnder path) marks)
      else if isTerminalNodeStatus source.status then
        route.handlerNodeIds.foldl (markSkippedUnder path) marks
      else route.handlerNodeIds.foldl markBlocked marks
  | none => route.handlerNodeIds.foldl markBlocked marks

def schedulerMarks (input : DeriveReadyNodesInput) (indexes : SchedulerIndexes) :
    SchedulerMarks :=
  let conditional := markConditionalBranches input indexes {}
  let routed := (input.failureRoutes.getD []).foldl (markFailureRoute indexes) conditional
  input.level.nodes.foldl (markParallelBranch input indexes) routed

/-!
## Decisions
-/

/-- The source step whose failure enters a handler at the given step. -/
def failureEntrySource (routes : Option (List ExecutionFailureRoute)) (nodeId : String) :
    Option String :=
  ((routes.getD []).reverse.find? fun route => route.entryNodeId == nodeId).map
    ExecutionFailureRoute.sourceNodeId

def predecessorAdmits (input : DeriveReadyNodesInput) (indexes : SchedulerIndexes)
    (nodeId predecessor : String) : Bool :=
  match indexes.invocationByNode.get? predecessor with
  | none => false
  | some invocation =>
      (invocation.failureHandling.isSome &&
          failureEntrySource input.failureRoutes nodeId == some predecessor) ||
        invocation.status == .succeeded || invocation.status == .skipped

def pairedParallelIsSkipped (input : DeriveReadyNodesInput) (indexes : SchedulerIndexes)
    (nodeId : String) : Bool :=
  match pairedParallelByMerge input.level nodeId with
  | none => true
  | some parallelId =>
      match indexes.invocationByNode.get? parallelId with
      | some invocation => invocation.status == .skipped
      | none => false

def isNodeReady (input : DeriveReadyNodesInput) (indexes : SchedulerIndexes)
    (marks : SchedulerMarks) (node : NodeRecord) : Bool :=
  if indexes.invocationByNode.has node.id then false
  else if marks.skipped.contains node.id then true
  else if marks.blocked.contains node.id then false
  else if !pairedParallelIsSkipped input indexes node.id then false
  else (predecessors input.level node.id).all (predecessorAdmits input indexes node.id)

def readyNodeDecision (input : DeriveReadyNodesInput) (marks : SchedulerMarks)
    (node : NodeRecord) : EngineResult ReadyNodeDecision := do
  let branchPath := (marks.branchPathByNode.get? node.id).map Prod.snd <|> input.branchPath
  let key ← scopedInvocationKey input.workflowVersionId node.id branchPath input.iterationPath
  pure
    { invocationKey := key
      nodeId := node.id
      disposition :=
        if marks.skipped.contains node.id || node.disabled then .skipped else .ready
      branchPath := branchPath
      iterationPath := input.iterationPath }

def deriveReadyNodes (input : DeriveReadyNodesInput) :
    EngineResult (List ReadyNodeDecision) := do
  let indexes ← indexInvocations input
  validateBranchSelections input indexes
  let marks := schedulerMarks input indexes
  ((sortWith (fun left right => compareOrdinal left.id right.id) input.level.nodes).filter
    (isNodeReady input indexes marks)).mapM (readyNodeDecision input marks)

end Engine
end Pertexo
