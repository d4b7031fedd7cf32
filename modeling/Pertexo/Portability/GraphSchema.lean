import Pertexo.Portability.Admission

/-!
# Parsing graphs

## Aggregate size

The steps and edges of nested bodies count as those of the graph.
-/

namespace Pertexo
namespace Portability

open Library
open Values

section

variable {Number : Type}

mutual

def WorkflowNode.bodyEdges : WorkflowNode Number -> Nat
  | .step _ => 0
  | .structured _ loop body => loop.edges.length + bodiesEdges body

def bodiesEdges : List (WorkflowNode Number) -> Nat
  | [] => 0
  | node :: rest => node.bodyEdges + bodiesEdges rest

end

mutual

def WorkflowNode.bodyDepth : WorkflowNode Number -> Nat
  | .step _ => 0
  | .structured _ _ body => bodiesDepth body + 1

def bodiesDepth : List (WorkflowNode Number) -> Nat
  | [] => 0
  | node :: rest => max node.bodyDepth (bodiesDepth rest)

end

structure GraphLimits extends AdmissionLimits where
  nodes : Nat
  edges : Nat
  identifierLength : Nat
  maxLoopIterations : Nat
  maxLoopConcurrency : Nat

def workflowGraphLimits : GraphLimits :=
  { nodes := 200
    edges := 4000
    graphBytes := 1048576
    identifierLength := 64
    maxLoopIterations := 4998
    maxLoopConcurrency := 200
    structuredDepth := 32
    jsonValueDepth := 64
    inputDepth := 256 }

def hasBoundedGraphAggregate (graph : WorkflowGraph Number) : Bool :=
  decide (bodiesDepth graph.nodes ≤ workflowGraphLimits.structuredDepth) &&
    decide ((nodesWithin graph.nodes).length ≤ workflowGraphLimits.nodes) &&
    decide (graph.edges.length + bodiesEdges graph.nodes ≤ workflowGraphLimits.edges)

end

/-!
## Keys that a structural parse drops

A structural parse copies records without an own key `__proto__`. The keys of
configs, of input mappings and of literal values are escaped before it and
restored after it. No escaped key is an array index, so that the order of keys
stays.
-/

def protoKey : ScriptString :=
  scriptString "__proto__"

def escapePrefix : ScriptString :=
  scriptString "\x00pertexo.input-mapping."

def escapedKeyPrefix : ScriptString :=
  escapePrefix ++ scriptString "escaped."

def inputMappingProtoKey : ScriptString :=
  escapePrefix ++ scriptString "proto"

def escapeKey (key : ScriptString) : ScriptString :=
  if key == protoKey then inputMappingProtoKey
  else if escapePrefix.isPrefixOf key then escapedKeyPrefix ++ key
  else key

def restoreKey (key : ScriptString) : ScriptString :=
  if key == inputMappingProtoKey then protoKey
  else if escapedKeyPrefix.isPrefixOf key then key.drop escapedKeyPrefix.length
  else key

section

variable {Number : Type}

mutual

def renameKeys (rename : ScriptString -> ScriptString) : GraphValue Number -> GraphValue Number
  | .array items => .array (renameItemKeys rename items)
  | .object members => .object (renameMemberKeys rename members)
  | value => value

def renameItemKeys (rename : ScriptString -> ScriptString) :
    List (GraphValue Number) -> List (GraphValue Number)
  | [] => []
  | item :: rest => renameKeys rename item :: renameItemKeys rename rest

def renameMemberKeys (rename : ScriptString -> ScriptString) :
    GraphMembers Number -> GraphMembers Number
  | [] => []
  | (name, value) :: rest => (rename name, renameKeys rename value) :: renameMemberKeys rename rest

end

def renameLiteralSource (rename : ScriptString -> ScriptString) :
    ValueSource Number -> ValueSource Number
  | .literal value => .literal (renameKeys rename value)
  | source => source

def renameFields (rename : ScriptString -> ScriptString) (fields : NodeFields Number) :
    NodeFields Number :=
  { fields with
    config := renameMemberKeys rename fields.config
    inputMappings := fields.inputMappings.map fun mapping =>
      (rename mapping.fst, renameLiteralSource rename mapping.snd) }

def renameGraph (rename : ScriptString -> ScriptString) (graph : WorkflowGraph Number) :
    WorkflowGraph Number :=
  { graph.mapFields (renameFields rename) with
    callable := graph.callable.map fun callable =>
      { callable with result := renameLiteralSource rename callable.result } }

def escapeDroppedInputMappingKeys : WorkflowGraph Number -> WorkflowGraph Number :=
  renameGraph escapeKey

def restoreDroppedInputMappingKeys : WorkflowGraph Number -> WorkflowGraph Number :=
  renameGraph restoreKey

/-!
## The copy of a structural parse
-/

mutual

def copyValue : GraphValue Number -> GraphValue Number
  | .array items => .array (copyItems items)
  | .object members => .object (copyMembers members)
  | value => value

def copyItems : List (GraphValue Number) -> List (GraphValue Number)
  | [] => []
  | item :: rest => copyValue item :: copyItems rest

def copyMembers : GraphMembers Number -> GraphMembers Number
  | [] => []
  | (name, value) :: rest =>
      if name == protoKey then copyMembers rest else (name, copyValue value) :: copyMembers rest

end

def copySource : ValueSource Number -> ValueSource Number
  | .literal value => .literal (copyValue value)
  | source => source

def keepsKey (key : ScriptString) : Bool :=
  !(key == protoKey)

def copyFields (fields : NodeFields Number) : NodeFields Number :=
  { fields with
    config := copyMembers fields.config
    inputMappings := (fields.inputMappings.filter fun mapping => keepsKey mapping.fst).map
      fun mapping => (mapping.fst, copySource mapping.snd)
    connectionRefs := fields.connectionRefs.filter keepsKey }

def copyGraph (graph : WorkflowGraph Number) : WorkflowGraph Number :=
  { graph.mapFields copyFields with
    callable := graph.callable.map fun callable =>
      { callable with result := copySource callable.result } }

end

/-!
## Structural checks
-/

def isIdentifier (text : ScriptString) : Bool :=
  decide (1 ≤ text.length) && decide (text.length ≤ workflowGraphLimits.identifierLength)

def isUpperCase (unit : UInt16) : Bool :=
  decide (0x41 ≤ unit.toNat) && decide (unit.toNat ≤ 0x5A)

def isVariableUnit (unit : UInt16) : Bool :=
  isUpperCase unit || decide (0x30 ≤ unit.toNat) && decide (unit.toNat ≤ 0x39) ||
    decide (unit.toNat = 0x5F)

def isWorkspaceVariableName (name : ScriptString) : Bool :=
  match name with
  | [] => false
  | first :: rest => isUpperCase first && rest.all isVariableUnit && decide (rest.length ≤ 63)

def hasEdgeEnds (edge : WorkflowEdge) : Bool :=
  isIdentifier edge.id && isIdentifier edge.source.nodeId && isIdentifier edge.source.port &&
    isIdentifier edge.target.nodeId && isIdentifier edge.target.port

section

variable {Number : Type} [GraphNumber Number]

def safeInteger? : NumberValue Number -> Option Int
  | .finite value => GraphNumber.safeInteger value
  | .negativeZero => some 0
  | .notFinite => none

def isIntegerWithin (low high : Int) (value : NumberValue Number) : Bool :=
  match safeInteger? value with
  | some n => decide (low ≤ n) && decide (n ≤ high)
  | none => false

def isPositiveInteger (value : NumberValue Number) : Bool :=
  match safeInteger? value with
  | some n => decide (0 < n)
  | none => false

def compareNumber (value : NumberValue Number) (bound : Int) : Option Ordering :=
  match value with
  | .finite held => some (GraphNumber.compareInteger held bound)
  | .negativeZero => some (compare 0 bound)
  | .notFinite => none

def isNumberWithin (low high : Int) (value : NumberValue Number) : Bool :=
  match compareNumber value low, compareNumber value high with
  | some left, some right => left != .lt && right != .gt
  | _, _ => false

mutual

def isFiniteValue : GraphValue Number -> Bool
  | .number value => isFiniteNumber value
  | .array items => areFiniteItems items
  | .object members => areFiniteMembers members
  | _ => true

def areFiniteItems : List (GraphValue Number) -> Bool
  | [] => true
  | item :: rest => isFiniteValue item && areFiniteItems rest

def areFiniteMembers : GraphMembers Number -> Bool
  | [] => true
  | (_, value) :: rest => isFiniteValue value && areFiniteMembers rest

end

def ValueSource.isValid : ValueSource Number -> Bool
  | .workspaceVariable name => isWorkspaceVariableName name
  | .literal value => isFiniteValue value
  | .runInput _ => true
  | .nodeOutput nodeId _ => isIdentifier nodeId
  | .nodeFailure nodeId _ => isIdentifier nodeId
  | .expression _ => true
  | .structuredInput port _ => isIdentifier port

def Position.isFinite (position : Position Number) : Bool :=
  isFiniteNumber position.x && isFiniteNumber position.y

def WorkflowSettings.isValid (settings : WorkflowSettings Number) : Bool :=
  settings.maxRunDurationMs.all (isIntegerWithin 1 3600000)

def StepRetrySettings.isValid (retry : StepRetrySettings Number) : Bool :=
  isIntegerWithin 1 5 retry.maximumAttempts && isIntegerWithin 1000 60000 retry.delayMillis &&
    (safeInteger? retry.delayMillis).all fun delay => decide (delay % 1000 = 0)

def NodeFields.isValid (fields : NodeFields Number) : Bool :=
  isIdentifier fields.id && isIdentifier fields.definition.key &&
    isPositiveInteger fields.definition.version && fields.position.isFinite &&
    isPositiveInteger fields.configVersion && areFiniteMembers fields.config &&
    (fields.inputMappings.all fun mapping => mapping.snd.isValid) &&
    (fields.connectionRefs.members.all fun reference => isIdentifier reference.snd) &&
    fields.retry.all StepRetrySettings.isValid

def ForEachFields.isValid (loop : ForEachFields Number) : Bool :=
  isIntegerWithin 1 workflowGraphLimits.maxLoopIterations loop.maxIterations &&
    isIntegerWithin 1 workflowGraphLimits.maxLoopConcurrency loop.maxConcurrency &&
    loop.edges.all hasEdgeEnds && loop.settings.isValid && loop.inputPorts.all isIdentifier &&
    loop.outputPorts.all isIdentifier

mutual

def WorkflowNode.isValid : WorkflowNode Number -> Bool
  | .step fields => fields.isValid
  | .structured fields loop body => fields.isValid && loop.isValid && areValidNodes body

def areValidNodes : List (WorkflowNode Number) -> Bool
  | [] => true
  | node :: rest => node.isValid && areValidNodes rest

end

mutual

def CallableType.isValid : CallableType Number -> Bool
  | .scalar _ => true
  | .array items maxItems => items.isValid && isIntegerWithin 0 10000 maxItems
  | .object properties => areValidProperties properties && decide (properties.length ≤ 10000)

def areValidProperties : List (ScriptString × CallableType Number × Bool) -> Bool
  | [] => true
  | (name, valueType, _) :: rest =>
      decide (1 ≤ name.length) && decide (name.length ≤ 64) && valueType.isValid &&
        areValidProperties rest

end

def CallableDeclaration.isValid (callable : CallableDeclaration Number) : Bool :=
  callable.input.isValid && callable.resultType.isValid && callable.result.isValid

def WorkflowNote.isValid (isUuid : ScriptString -> Bool) (note : WorkflowNote Number) : Bool :=
  isUuid note.id && decide (note.text.length ≤ 4000) &&
    isNumberWithin (-100000) 100000 note.position.x &&
    isNumberWithin (-100000) 100000 note.position.y &&
    isNumberWithin 200 1200 note.size.width && isNumberWithin 120 1200 note.size.height

def areValidNotes (isUuid : ScriptString -> Bool) (notes : List (WorkflowNote Number)) : Bool :=
  decide (notes.length ≤ 100) && notes.all (WorkflowNote.isValid isUuid) &&
    decide (notes.map WorkflowNote.id).Nodup

def WorkflowGraph.isValid (isUuid : ScriptString -> Bool) (graph : WorkflowGraph Number) : Bool :=
  decide (graph.nodes.length ≤ workflowGraphLimits.nodes) && areValidNodes graph.nodes &&
    decide (graph.edges.length ≤ workflowGraphLimits.edges) && graph.edges.all hasEdgeEnds &&
    graph.settings.isValid && graph.callable.all CallableDeclaration.isValid &&
    graph.notes.all (areValidNotes isUuid)

/-!
## The two parsers
-/

inductive GraphFailure where
  | contract (failure : AdmissionFailure)
  | schema

def workflowGraphStructuralSchema (isUuid : ScriptString -> Bool) (graph : WorkflowGraph Number) :
    Except GraphFailure (WorkflowGraph Number) :=
  if graph.isValid isUuid then .ok (copyGraph graph) else .error .schema

def parseAdmitted (isUuid : ScriptString -> Bool) (graph : WorkflowGraph Number) :
    Except GraphFailure (WorkflowGraph Number) :=
  if hasBoundedGraphAggregate graph then
    (workflowGraphStructuralSchema isUuid (escapeDroppedInputMappingKeys graph)).map
      restoreDroppedInputMappingKeys
  else .error .schema

def parseWorkflowGraphDraft (isUuid : ScriptString -> Bool) (input : WorkflowGraph Number) :
    Except GraphFailure (WorkflowGraph Number) :=
  match inspectWorkflowGraphAdmission workflowGraphLimits.toAdmissionLimits false input with
  | .error failure => .error (.contract failure)
  | .ok _ => parseAdmitted isUuid input

/-- The graph schema admits numbers that are not finite, for the structural checks to refuse. -/
def workflowGraphSchema (isUuid : ScriptString -> Bool) (input : WorkflowGraph Number) :
    Except GraphFailure (WorkflowGraph Number) :=
  match inspectWorkflowGraphAdmission workflowGraphLimits.toAdmissionLimits true input with
  | .error _ => .error .schema
  | .ok _ => parseAdmitted isUuid input

end

end Portability
end Pertexo
