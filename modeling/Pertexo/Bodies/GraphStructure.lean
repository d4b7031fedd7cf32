import Pertexo.Bodies.GraphLevels
import Pertexo.Library.Worklists
import Pertexo.Portability.Projection

/-!
# The structure of a graph

The issues of one validation in the order in which they are reported. The path of an
issue is kept as its parts; its text has dots between them.
-/

namespace Pertexo
namespace Bodies

open Library
open Portability
open Values

inductive GraphIssueCode where
  | duplicateNodeId
  | duplicateEdgeId
  | danglingEdge
  | cycle
  | invalidLoopLimit
  | invalidStructuredBody
  | invalidMapping
  | graphLimit
  | invalidGraph
deriving DecidableEq, Repr

abbrev IssuePath : Type :=
  List ScriptString

structure GraphIssue where
  code : GraphIssueCode
  path : IssuePath
  message : ScriptString
deriving DecidableEq

structure StructureRules (Number : Type) where
  nodes : Nat
  edges : Nat
  maxLoopIterations : Int
  maxLoopConcurrency : Int
  maxDirectPredecessors : Nat
  isJsonPath : ScriptString -> Bool
  supportsStepRetrySettings : NodeDefinition Number -> Bool

structure StructureState where
  nodes : Nat
  edges : Nat
  globalNodeIds : List ScriptString

structure StructureReport where
  issues : List GraphIssue
  state : StructureState

section

variable {Number : Type}

def pathParts (path : IssuePath) (parts : List String) : IssuePath :=
  path ++ parts.map scriptString

def nodePath (path : IssuePath) (id : ScriptString) : IssuePath :=
  path ++ [scriptString "nodes", id]

/-!
## One level
-/

def countIssues (rules : StructureRules Number) (path : IssuePath) (state : StructureState) :
    List GraphIssue :=
  if state.nodes > rules.nodes || state.edges > rules.edges then
    [{ code := .graphLimit, path
       message := scriptString "node or edge count exceeds the graph limit" }]
  else []

/-- Every id that has been seen before, on the level or on an earlier one. -/
def duplicateNodes (seen : List ScriptString) (path : IssuePath) :
    List ScriptString -> List GraphIssue
  | [] => []
  | id :: rest =>
      (if seen.contains id then
        [{ code := GraphIssueCode.duplicateNodeId, path := pathParts path ["nodes"]
           message := scriptString "duplicate node " ++ id }]
      else []) ++ duplicateNodes (seen ++ [id]) path rest

def directUpstream (level : GraphLevel Number) (id : ScriptString) : List ScriptString :=
  ((level.edges.filter fun edge =>
    level.ids.contains edge.source.nodeId && level.ids.contains edge.target.nodeId &&
      edge.target.nodeId == id).map fun edge => edge.source.nodeId)

def sourcePath : ValueSource Number -> Option ScriptString
  | .runInput path => some path
  | .nodeOutput _ path => some path
  | .nodeFailure _ path => some path
  | .structuredInput _ path => some path
  | .workspaceVariable _ => none
  | .literal _ => none
  | .expression _ => none

def mappingPathIssues (rules : StructureRules Number) (path : IssuePath)
    (source : ValueSource Number) : List GraphIssue :=
  match sourcePath source with
  | none => []
  | some text =>
      if rules.isJsonPath text then []
      else [{ code := .invalidMapping, path
              message := scriptString ("Use a JSON path such as $.customer.email, $[0], or " ++
                "$['email address'].") }]

def mappingSourceIssues (allNodeIds : List ScriptString) (level : GraphLevel Number)
    (structuredInputPorts : List ScriptString) (id : ScriptString) (path : IssuePath) :
    ValueSource Number -> List GraphIssue
  | .structuredInput port _ =>
      if structuredInputPorts.contains port then []
      else [{ code := .invalidStructuredBody, path
              message := scriptString
                "structured input must reference a port on the nearest body" }]
  | .nodeOutput nodeId _ =>
      if !level.ids.contains nodeId && allNodeIds.contains nodeId then
        [{ code := .invalidStructuredBody, path
           message := scriptString "node output mappings cannot cross a structured-body seam" }]
      else if !(directUpstream level id).contains nodeId then
        [{ code := .invalidMapping, path
           message := scriptString
             "node output mappings must reference a direct local predecessor" }]
      else []
  | _ => []

def predecessorIssues (rules : StructureRules Number) (level : GraphLevel Number)
    (path : IssuePath) (fields : NodeFields Number) : List GraphIssue :=
  let upstream : Keyed ScriptString id := Keyed.ofList (directUpstream level fields.id)
  if fields.definition.key != scriptString "core.merge" &&
      upstream.items.length > rules.maxDirectPredecessors then
    [{ code := .graphLimit, path := nodePath path fields.id
       message := scriptString ("A step can have at most " ++
         toString rules.maxDirectPredecessors ++ " direct predecessors. Add an intermediate " ++
         "step to combine their outputs.") }]
  else []

def validateMappings (rules : StructureRules Number) (allNodeIds : List ScriptString)
    (level : GraphLevel Number) (path : IssuePath) (structuredInputPorts : List ScriptString) :
    List GraphIssue :=
  level.nodes.flatMap fun node =>
    let fields := node.fields
    predecessorIssues rules level path fields ++
      fields.inputMappings.flatMap fun mapping =>
        let mappingPath := nodePath path fields.id ++ [scriptString "inputMappings", mapping.fst]
        mappingPathIssues rules mappingPath mapping.snd ++
          mappingSourceIssues allNodeIds level structuredInputPorts fields.id mappingPath
            mapping.snd

/-- Both checks of every link: its id, and its ends. -/
def validateEdges (level : GraphLevel Number) (path : IssuePath) :
    List ScriptString -> List WorkflowEdge -> List GraphIssue
  | _, [] => []
  | seen, edge :: rest =>
      (if seen.contains edge.id then
        [{ code := GraphIssueCode.duplicateEdgeId, path := pathParts path ["edges"]
           message := scriptString "duplicate edge " ++ edge.id }]
      else []) ++
      (if !level.ids.contains edge.source.nodeId || !level.ids.contains edge.target.nodeId then
        [{ code := GraphIssueCode.danglingEdge, path := path ++ [scriptString "edges", edge.id]
           message := scriptString "ordinary edges cannot cross a structured-body seam" }]
      else []) ++ validateEdges level path (seen ++ [edge.id]) rest

def levelAdjacency (level : GraphLevel Number) (id : ScriptString) : List ScriptString :=
  ((level.edges.filter fun edge =>
    level.ids.contains edge.source.nodeId && level.ids.contains edge.target.nodeId &&
      edge.source.nodeId == id).map fun edge => edge.target.nodeId)

/-- The depth of a visit is bounded by the steps of the level, as it stops at a step that it
is visiting. -/
def visit (adjacency : ScriptString -> List ScriptString) (path : IssuePath) :
    Nat -> List ScriptString -> List GraphIssue × List ScriptString -> ScriptString ->
      List GraphIssue × List ScriptString
  | 0, _, found, _ => found
  | depth + 1, visiting, (issues, visited), id =>
      if visiting.contains id then
        (issues ++ [{ code := .cycle, path, message := scriptString "cycle contains " ++ id }],
          visited)
      else if visited.contains id then (issues, visited)
      else
        let inner := (adjacency id).foldl
          (fun found next => visit adjacency path depth (visiting ++ [id]) found next)
          (issues, visited)
        (inner.fst, inner.snd ++ [id])

def validateAcyclic (level : GraphLevel Number) (path : IssuePath) : List GraphIssue :=
  ((sortWith compareUnits (Keyed.ofList level.ids : Keyed ScriptString id).items).foldl
    (fun found id => visit (levelAdjacency level) path (level.ids.length + 1) [] found id)
    ([], [])).fst

def validateLevel (rules : StructureRules Number) (allNodeIds : List ScriptString)
    (level : GraphLevel Number) (path : IssuePath) (structuredInputPorts : List ScriptString)
    (state : StructureState) : StructureReport :=
  let counted := { state with
    nodes := state.nodes + level.nodes.length
    edges := state.edges + level.edges.length }
  { issues := countIssues rules path counted ++
      duplicateNodes state.globalNodeIds path level.ids ++
      validateMappings rules allNodeIds level path structuredInputPorts ++
      validateEdges level path [] level.edges ++
      validateAcyclic level path
    state := { counted with globalNodeIds := state.globalNodeIds ++ level.ids } }

/-!
## Bodies
-/

def incomingCount (body : GraphLevel Number) (id : ScriptString) : Nat :=
  (body.edges.filter fun edge =>
    body.ids.contains edge.source.nodeId && body.ids.contains edge.target.nodeId &&
      edge.target.nodeId == id).length

def bodyIds (body : GraphLevel Number) : List ScriptString :=
  (Keyed.ofList body.ids : Keyed ScriptString id).items

def outgoingLinks (body : GraphLevel Number) : List (ScriptString × ScriptString) :=
  (bodyIds body).flatMap fun source =>
    (levelAdjacency body source).map fun target => (source, target)

def reverseLinks (body : GraphLevel Number) : List (ScriptString × ScriptString) :=
  (outgoingLinks body).map Prod.swap

def bodySinks (body : GraphLevel Number) : List ScriptString :=
  (bodyIds body).filter fun id => (levelAdjacency body id).length == 0

def structuredBodyTopologyValid (body : GraphLevel Number) : Bool :=
  let roots := (bodyIds body).filter fun id => incomingCount body id == 0
  let sinks := bodySinks body
  let reachable := reach (outgoingLinks body) roots
  let reachesSink := reach (reverseLinks body) (if sinks.length == 1 then sinks else [])
  sinks.length == 1 && reachable.length == (bodyIds body).length &&
    reachesSink.length == (bodyIds body).length

def emptyMessage : ScriptString :=
  scriptString "For Each body must not be empty"

def topologyMessage : ScriptString :=
  scriptString ("For Each body requires one sink with every node root-reachable and " ++
    "sink-reachable")

def bodyReport (body : GraphLevel Number) (bodyPath : IssuePath) : List GraphIssue :=
  (if body.nodes.length == 0 then
    [{ code := .invalidStructuredBody, path := pathParts bodyPath ["nodes"]
       message := emptyMessage }]
  else []) ++
  (if !structuredBodyTopologyValid body then
    [{ code := .invalidStructuredBody, path := bodyPath, message := topologyMessage }]
  else [])

/-!
## Steps
-/

def retryIssues (rules : StructureRules Number) (path : IssuePath) (fields : NodeFields Number) :
    List GraphIssue :=
  if fields.retry.isSome && !rules.supportsStepRetrySettings fields.definition then
    [{ code := .invalidGraph, path := pathParts (nodePath path fields.id) ["retry"]
       message := scriptString
         "Retry settings apply to action steps, not triggers or workflow controls" }]
  else []

section

variable [GraphNumber Number]

def ownershipIssues (path : IssuePath) (fields : NodeFields Number)
    (structured : Bool) : List GraphIssue :=
  let ownsForEach := fields.definition.key == FOREACH_KEY &&
    safeInteger? fields.definition.version == some 1
  if ownsForEach != structured then
    [{ code := .invalidStructuredBody, path := pathParts (nodePath path fields.id) ["structured"]
       message := scriptString ("core.foreach@1 must own exactly one For Each body and no other " ++
         "definition may own one") }]
  else []

def integerIn (value : NumberValue Number) (maximum : Int) : Option Int :=
  (safeInteger? value).filter fun n => 1 ≤ n && n ≤ maximum

def validateLoopLimits (rules : StructureRules Number) (path : IssuePath)
    (loop : ForEachFields Number) : List GraphIssue :=
  let limits := (integerIn loop.maxIterations rules.maxLoopIterations).bind fun iterations =>
    (integerIn loop.maxConcurrency rules.maxLoopConcurrency).filter fun concurrency =>
      concurrency ≤ iterations
  if limits.isNone then
    [{ code := .invalidLoopLimit, path
       message := scriptString ("For Each limits must be positive, bounded, and concurrency " ++
         "cannot exceed iterations") }]
  else []

def portIssues (bodyPath : IssuePath) (loop : ForEachFields Number) : List GraphIssue :=
  if loop.inputPorts != [scriptString "item", scriptString "ordinal"] ||
      loop.outputPorts != [scriptString "result"] then
    [{ code := .invalidStructuredBody, path := bodyPath
       message := scriptString
         "For Each body ports must be exactly item, ordinal, and result" }]
  else []

mutual

def validateStructuredNode (rules : StructureRules Number) (allNodeIds : List ScriptString)
    (path : IssuePath) : WorkflowNode Number -> StructureState -> StructureReport
  | .step fields, state =>
      { issues := retryIssues rules path fields ++ ownershipIssues path fields false
        state }
  | .structured fields loop body, state =>
      let loopPath := pathParts (nodePath path fields.id) ["structured"]
      let bodyPath := pathParts loopPath ["body"]
      let level : GraphLevel Number := { nodes := body, edges := loop.edges }
      let own := validateLevel rules allNodeIds level bodyPath loop.inputPorts state
      let inner := validateNodes rules allNodeIds bodyPath body own.state
      { issues := retryIssues rules path fields ++ ownershipIssues path fields true ++
          validateLoopLimits rules loopPath loop ++ portIssues bodyPath loop ++
          bodyReport level bodyPath ++ own.issues ++ inner.issues
        state := inner.state }

def validateNodes (rules : StructureRules Number) (allNodeIds : List ScriptString)
    (path : IssuePath) : List (WorkflowNode Number) -> StructureState -> StructureReport
  | [], state => { issues := [], state }
  | node :: rest, state =>
      let first := validateStructuredNode rules allNodeIds path node state
      let later := validateNodes rules allNodeIds path rest first.state
      { issues := first.issues ++ later.issues, state := later.state }

end

def rootPath : IssuePath :=
  [scriptString "$"]

/-- The issues of a whole graph, as its validation begins. -/
def validateGraphStructure (rules : StructureRules Number) (graph : GraphLevel Number) :
    List GraphIssue :=
  let allNodeIds := (walkLevels graph).flatMap fun level => level.fst.ids
  let own := validateLevel rules allNodeIds graph rootPath []
    { nodes := 0, edges := 0, globalNodeIds := [] }
  own.issues ++ (validateNodes rules allNodeIds rootPath graph.nodes own.state).issues

end

end

end Bodies
end Pertexo
