import Pertexo.Engine.Execution

/-!
# Workflow executables

## Steps and their control setup

A Switch, Parallel or Merge step carries the setup its schema admits; the
bounds of a Parallel setup are fields, so a setup outside them cannot be built.
-/

namespace Pertexo
namespace Engine

open Library
open Values

structure NodeDefinition where
  key : String
  version : Nat
deriving DecidableEq, Repr

def parallelBranchPorts : List String :=
  ["branch-01", "branch-02", "branch-03", "branch-04", "branch-05", "branch-06",
    "branch-07", "branch-08", "branch-09", "branch-10", "branch-11", "branch-12",
    "branch-13", "branch-14", "branch-15", "branch-16"]

structure ParallelConfig where
  branches : List String
  maxConcurrency : Nat
  branches_known : forall port, port ∈ branches -> port ∈ parallelBranchPorts
  branches_nodup : branches.Nodup
  two_le_branches : 2 ≤ branches.length
  one_le_maxConcurrency : 1 ≤ maxConcurrency
  maxConcurrency_le : maxConcurrency ≤ branches.length
deriving DecidableEq

structure MergeConfig where
  parallelNodeId : String
  policy : JoinPolicy
deriving DecidableEq

inductive ControlNodeConfig where
  | switch (cases : List String)
  | parallel (config : ParallelConfig)
  | merge (config : MergeConfig)
deriving DecidableEq

/-- The config fields the engine reads; every other config field belongs to an executor. -/
structure NodeConfig where
  mode : Option String := none
  onExpiry : Option String := none
  callTarget : Option String := none
deriving DecidableEq, Repr

structure StepRetrySettings where
  maximumAttempts : Nat
  delayMillis : Nat
deriving DecidableEq, Repr

structure NodeRecord where
  id : String
  definition : NodeDefinition
  config : NodeConfig := {}
  control : Option ControlNodeConfig := none
  disabled : Bool := false
  sideEffectClass : SideEffectClass := .safe
  retry : Option StepRetrySettings := none
  readOnlyAttempts : Bool := false
deriving DecidableEq

structure PortReference where
  nodeId : String
  port : String
deriving DecidableEq, Repr

structure WorkflowEdge where
  id : String
  source : PortReference
  target : PortReference
deriving DecidableEq, Repr

inductive ExecutableNode where
  | step (record : NodeRecord)
  | forEach (record : NodeRecord) (maxIterations maxConcurrency : Nat)
      (nodes : List ExecutableNode) (edges : List WorkflowEdge)

structure ExecutableGraph where
  nodes : List ExecutableNode
  edges : List WorkflowEdge

structure ForEachStructure where
  maxIterations : Nat
  maxConcurrency : Nat
  body : ExecutableGraph

def ExecutableNode.record : ExecutableNode -> NodeRecord
  | .step record => record
  | .forEach record _ _ _ _ => record

def ExecutableNode.structured : ExecutableNode -> Option ForEachStructure
  | .step _ => none
  | .forEach _ maxIterations maxConcurrency nodes edges =>
      some
        { maxIterations := maxIterations
          maxConcurrency := maxConcurrency
          body := { nodes := nodes, edges := edges } }

structure ExecutionFailureRoute where
  sourceNodeId : String
  entryNodeId : String
  sinkNodeId : String
  handlerNodeIds : List String
  normalSuffixNodeIds : List String
deriving DecidableEq, Repr

/-!
## Definition identities
-/

def isCoreMergeDefinition (definition : NodeDefinition) : Bool :=
  definition.key == "core.merge" && definition.version == 1

def isHumanTaskDefinition (definition : NodeDefinition) : Bool :=
  (definition.key == "core.approval" || definition.key == "core.request_input") &&
    definition.version == 1

def isWorkflowCallDefinition (definition : NodeDefinition) : Bool :=
  definition.key == "core.call" && definition.version == 1

def isCallbackWaitNode (node : NodeRecord) : Bool :=
  node.definition.key == "core.wait" && node.definition.version == 1 &&
    node.config.mode == some "callback"

def isPendingTaskNode (node : NodeRecord) : Bool :=
  isHumanTaskDefinition node.definition || isCallbackWaitNode node

inductive ControlOutputKind where
  | branch
  | parallel
  | forEach
  | humanTask
deriving DecidableEq, Repr

/-- Definition identity decides control materialization; no config is passed here. -/
def workflowControlOutputKind (definition : NodeDefinition) : Option ControlOutputKind :=
  if definition.version != 1 then none
  else if definition.key == "core.condition" || definition.key == "core.switch" ||
      definition.key == "core.approval" then some .branch
  else if definition.key == "core.request_input" then some .humanTask
  else if definition.key == "core.foreach" then some .forEach
  else if definition.key == "core.parallel" then some .parallel
  else none

def isCoreParallelDefinition (definition : NodeDefinition) : Bool :=
  workflowControlOutputKind definition == some .parallel

def workflowTriggerKeys : List String :=
  ["core.manual", "core.webhook", "core.schedule", "core.workflow_error", "core.form"]

def excludedFailureSources : List String :=
  ["core.condition", "core.switch", "core.parallel", "core.merge", "core.foreach",
    "core.wait", "core.call", "core.terminate"]

def isWorkflowFailureSource (node : NodeRecord) : Bool :=
  isCallbackWaitNode node ||
    (!workflowTriggerKeys.contains node.definition.key &&
      !excludedFailureSources.contains node.definition.key)

/-!
## Output ports of control steps
-/

def timedOutPort : String := "timed_out"

def continuesOnExpiry (node : NodeRecord) : Bool :=
  isHumanTaskDefinition node.definition && node.config.onExpiry == some "continue"

def pendingTaskOutputPorts (node : NodeRecord) : Option (List String) :=
  if !isHumanTaskDefinition node.definition then none
  else
    let decided :=
      if node.definition.key == "core.approval" then ["approved", "rejected"] else ["out"]
    some (if continuesOnExpiry node then decided ++ [timedOutPort] else decided)

def configuredBranchOutputPorts (node : NodeRecord) : Option (List String) :=
  match pendingTaskOutputPorts node with
  | some taskPorts => if taskPorts.length > 1 then some taskPorts else none
  | none =>
      if workflowControlOutputKind node.definition != some .branch then none
      else if node.definition.key == "core.condition" && node.definition.version == 1 then
        some ["false", "true"]
      else
        match node.control with
        | some (.switch cases) => some (cases ++ ["default"])
        | _ => none

def configuredParallelOutputPorts (node : NodeRecord) : Option (List String) :=
  match node.control with
  | some (.parallel config) => some config.branches
  | _ => none

def configuredParallelMaxConcurrency (node : NodeRecord) : Option Nat :=
  match node.control with
  | some (.parallel config) => some config.maxConcurrency
  | _ => none

def configuredPairedParallelId (node : NodeRecord) : Option String :=
  match node.control with
  | some (.merge config) => some config.parallelNodeId
  | _ => none

def configuredScopedOutputPorts (node : NodeRecord) : Option (List String) :=
  configuredBranchOutputPorts node <|> configuredParallelOutputPorts node

/-!
## Walking the executable graph
-/

mutual

def executionNodesOf : ExecutableNode -> List ExecutableNode
  | .step record => [.step record]
  | .forEach record maxIterations maxConcurrency nodes edges =>
      .forEach record maxIterations maxConcurrency nodes edges ::
        executionNodesOfList nodes

def executionNodesOfList : List ExecutableNode -> List ExecutableNode
  | [] => []
  | node :: rest => executionNodesOf node ++ executionNodesOfList rest

end

structure NodeContext where
  node : ExecutableNode
  graph : ExecutableGraph
  ancestors : List String

mutual

def findNodeContextIn (nodeId : String) (graph : ExecutableGraph) (ancestors : List String) :
    ExecutableNode -> Option NodeContext
  | .step record =>
      if record.id == nodeId then
        some { node := .step record, graph := graph, ancestors := ancestors }
      else none
  | .forEach record maxIterations maxConcurrency nodes edges =>
      if record.id == nodeId then
        some
          { node := .forEach record maxIterations maxConcurrency nodes edges
            graph := graph
            ancestors := ancestors }
      else
        findNodeContextInList nodeId { nodes := nodes, edges := edges }
          (ancestors ++ [record.id]) nodes

def findNodeContextInList (nodeId : String) (graph : ExecutableGraph)
    (ancestors : List String) : List ExecutableNode -> Option NodeContext
  | [] => none
  | node :: rest =>
      match findNodeContextIn nodeId graph ancestors node with
      | some context => some context
      | none => findNodeContextInList nodeId graph ancestors rest

end

def findExecutableNodeContext (graph : ExecutableGraph) (nodeId : String) :
    Option NodeContext :=
  findNodeContextInList nodeId graph [] graph.nodes

def ancestorsOf (graph : ExecutableGraph) (nodeId : String) : Option (List String) :=
  (findExecutableNodeContext graph nodeId).map NodeContext.ancestors

/--
Graph validation admits no step identity twice, loop bodies included, and pairs
a Merge step with a Parallel step of the same graph.
-/
structure CompiledWorkflowExecutable where
  graph : ExecutableGraph
  failureRoutes : List ExecutionFailureRoute
  node_ids_nodup :
    ((executionNodesOfList graph.nodes).map fun node => node.record.id).Nodup
  paired_ancestors :
    forall merge, merge ∈ executionNodesOfList graph.nodes ->
      forall parallelId, parallelId ∈ configuredPairedParallelId merge.record ->
        ancestorsOf graph parallelId = ancestorsOf graph merge.record.id

def executionNodes (executable : CompiledWorkflowExecutable) : List ExecutableNode :=
  executionNodesOfList executable.graph.nodes

abbrev NodeIndex := Keyed ExecutableNode fun node => node.record.id

def nodesById (executable : CompiledWorkflowExecutable) : NodeIndex :=
  Keyed.ofList (executionNodes executable)

mutual

def bodyEdgesOf : ExecutableNode -> List WorkflowEdge
  | .step _ => []
  | .forEach _ _ _ nodes edges => edges ++ bodyEdgesOfList nodes

def bodyEdgesOfList : List ExecutableNode -> List WorkflowEdge
  | [] => []
  | node :: rest => bodyEdgesOf node ++ bodyEdgesOfList rest

end

def ExecutableGraph.targetIds (graph : ExecutableGraph) : List String :=
  graph.edges.map fun edge => edge.target.nodeId

def ExecutableGraph.sourceIds (graph : ExecutableGraph) : List String :=
  graph.edges.map fun edge => edge.source.nodeId

def ExecutableGraph.nodeIds (graph : ExecutableGraph) : List String :=
  graph.nodes.map fun node => node.record.id

def bodyRootNodeIds (body : ExecutableGraph) : List String :=
  sortOrdinal (body.nodeIds.filter fun id => !body.targetIds.contains id)

def bodySinkNodeId (body : ExecutableGraph) : Option String :=
  body.nodeIds.find? fun id => !body.sourceIds.contains id

def executableEdges (graph : ExecutableGraph) : List WorkflowEdge :=
  graph.edges ++ bodyEdgesOfList graph.nodes

/-!
## The scheduler's projection

The scheduler reads the step records and links of one level at a time: the
root graph, and every loop body with the identity of its loop.
-/

structure SchedulerLevel where
  nodes : List NodeRecord
  edges : List WorkflowEdge
deriving DecidableEq

structure StructuredBody where
  loopNodeId : String
  level : SchedulerLevel
deriving DecidableEq

structure SchedulerState where
  failureRoutes : Option (List ExecutionFailureRoute)
  level : SchedulerLevel
  structuredBodies : List StructuredBody
deriving DecidableEq

mutual

def structuredBodiesOf : ExecutableNode -> List StructuredBody
  | .step _ => []
  | .forEach record _ _ nodes edges =>
      { loopNodeId := record.id
        level := { nodes := nodes.map ExecutableNode.record, edges := edges } } ::
        structuredBodiesOfList nodes

def structuredBodiesOfList : List ExecutableNode -> List StructuredBody
  | [] => []
  | node :: rest => structuredBodiesOf node ++ structuredBodiesOfList rest

end

def projectSchedulerState (graph : ExecutableGraph) : SchedulerState :=
  { failureRoutes := none
    level := { nodes := graph.nodes.map ExecutableNode.record, edges := graph.edges }
    structuredBodies := structuredBodiesOfList graph.nodes }

def schedulerState (executable : CompiledWorkflowExecutable) : SchedulerState :=
  { projectSchedulerState executable.graph with
    failureRoutes :=
      if executable.failureRoutes.isEmpty then none else some executable.failureRoutes }

end Engine
end Pertexo
