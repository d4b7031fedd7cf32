import Pertexo.Values.JsonRoundTrip

/-!
# Workflow graphs

## Numbers of a graph

A graph holds script numbers. Its integers are the safe ones, and the sizes and
positions of notes are compared with integers.
-/

namespace Pertexo
namespace Portability

open Values

class GraphNumber (Number : Type) extends ScriptNumber Number where
  safeInteger : Number -> Option Int
  compareInteger : Number -> Int -> Ordering

abbrev GraphValue (Number : Type) :=
  BoundedJsonValue (NumberValue Number)

abbrev GraphMembers (Number : Type) :=
  List (ScriptString × GraphValue Number)

/-!
## Records

The own keys of a record of texts stand in the order of own keys.
-/

structure TextRecord where
  members : List (ScriptString × ScriptString)
  ordered : OwnOrder members

def TextRecord.empty : TextRecord :=
  { members := [], ordered := List.Pairwise.nil }

def TextRecord.define (record : TextRecord) (key value : ScriptString) : TextRecord :=
  { members := defineProperty key value record.members
    ordered := ownOrder_defineProperty record.ordered }

def TextRecord.filter (record : TextRecord) (keep : ScriptString -> Bool) : TextRecord :=
  { members := record.members.filter fun member => keep member.fst
    ordered := record.ordered.sublist List.filter_sublist }

def TextRecord.keys (record : TextRecord) : List ScriptString :=
  record.members.map Prod.fst

theorem TextRecord.eq_of_members {left right : TextRecord} (h : left.members = right.members) :
    left = right := by
  cases left
  cases right
  cases h
  rfl

/-!
## Graphs

A step may be structured: its body holds steps of its own.
-/

inductive ValueSource (Number : Type) where
  | workspaceVariable (name : ScriptString)
  | literal (value : GraphValue Number)
  | runInput (path : ScriptString)
  | nodeOutput (nodeId path : ScriptString)
  | nodeFailure (nodeId path : ScriptString)
  | expression (source : ScriptString)
  | structuredInput (port path : ScriptString)

structure EdgeEnd where
  nodeId : ScriptString
  port : ScriptString

structure WorkflowEdge where
  id : ScriptString
  source : EdgeEnd
  target : EdgeEnd

structure NodeDefinition (Number : Type) where
  key : ScriptString
  version : NumberValue Number

structure Position (Number : Type) where
  x : NumberValue Number
  y : NumberValue Number

structure StepRetrySettings (Number : Type) where
  maximumAttempts : NumberValue Number
  delayMillis : NumberValue Number

structure WorkflowSettings (Number : Type) where
  maxRunDurationMs : Option (NumberValue Number)

structure NodeFields (Number : Type) where
  id : ScriptString
  definition : NodeDefinition Number
  position : Position Number
  configVersion : NumberValue Number
  config : GraphMembers Number
  inputMappings : List (ScriptString × ValueSource Number)
  connectionRefs : TextRecord
  label : Option ScriptString
  disabled : Option Bool
  retry : Option (StepRetrySettings Number)

structure ForEachFields (Number : Type) where
  maxIterations : NumberValue Number
  maxConcurrency : NumberValue Number
  edges : List WorkflowEdge
  settings : WorkflowSettings Number
  inputPorts : List ScriptString
  outputPorts : List ScriptString

inductive WorkflowNode (Number : Type) where
  | step (fields : NodeFields Number)
  | structured (fields : NodeFields Number) (loop : ForEachFields Number)
      (body : List (WorkflowNode Number))

def WorkflowNode.fields : WorkflowNode Number -> NodeFields Number
  | .step fields => fields
  | .structured fields _ _ => fields

inductive ScalarType where
  | null
  | boolean
  | number
  | string
deriving DecidableEq, Repr

inductive CallableType (Number : Type) where
  | scalar (type : ScalarType)
  | array (items : CallableType Number) (maxItems : NumberValue Number)
  | object (properties : List (ScriptString × CallableType Number × Bool))

structure CallableDeclaration (Number : Type) where
  input : CallableType Number
  resultType : CallableType Number
  result : ValueSource Number

inductive NoteColor where
  | neutral
  | teal
  | violet
  | sage
  | amber
deriving DecidableEq, Repr

structure NoteSize (Number : Type) where
  width : NumberValue Number
  height : NumberValue Number

structure WorkflowNote (Number : Type) where
  id : ScriptString
  text : ScriptString
  position : Position Number
  size : NoteSize Number
  color : NoteColor

structure WorkflowGraph (Number : Type) where
  notes : Option (List (WorkflowNote Number))
  nodes : List (WorkflowNode Number)
  edges : List WorkflowEdge
  settings : WorkflowSettings Number
  callable : Option (CallableDeclaration Number)

/-!
## Rewriting every step

A rewrite changes the fields of every step, those of nested bodies included.
-/

section

variable {Number : Type}

mutual

def WorkflowNode.mapFields (f : NodeFields Number -> NodeFields Number) :
    WorkflowNode Number -> WorkflowNode Number
  | .step fields => .step (f fields)
  | .structured fields loop body => .structured (f fields) loop (mapNodes f body)

def mapNodes (f : NodeFields Number -> NodeFields Number) :
    List (WorkflowNode Number) -> List (WorkflowNode Number)
  | [] => []
  | node :: rest => node.mapFields f :: mapNodes f rest

end

def WorkflowGraph.mapFields (f : NodeFields Number -> NodeFields Number)
    (graph : WorkflowGraph Number) : WorkflowGraph Number :=
  { graph with nodes := mapNodes f graph.nodes }

/-!
The steps of a graph: those of one body follow each other, and the body of a
later step comes before the body of an earlier one.
-/

mutual

def WorkflowNode.bodyWithin : WorkflowNode Number -> List (NodeFields Number)
  | .step _ => []
  | .structured _ _ body => body.map WorkflowNode.fields ++ bodiesWithin body

def bodiesWithin : List (WorkflowNode Number) -> List (NodeFields Number)
  | [] => []
  | node :: rest => bodiesWithin rest ++ node.bodyWithin

end

def nodesWithin (nodes : List (WorkflowNode Number)) : List (NodeFields Number) :=
  nodes.map WorkflowNode.fields ++ bodiesWithin nodes

end

/-!
## Graphs as JSON values

The snapshot of a graph is a JSON value. A member that a graph leaves out is not
a member of the value.
-/

section

variable {Number : Type}

def member (name : String) (value : GraphValue Number) : ScriptString × GraphValue Number :=
  (scriptString name, value)

def optionalMember (name : String) (value : Option (GraphValue Number)) : GraphMembers Number :=
  match value with
  | some held => [member name held]
  | none => []

def textJson (text : String) : GraphValue Number :=
  .string (scriptString text)

def textsJson (texts : List ScriptString) : GraphValue Number :=
  .array (texts.map .string)

/-!
## Parts of a graph
-/

def ValueSource.json : ValueSource Number -> GraphValue Number
  | .workspaceVariable name =>
      .object [member "kind" (textJson "workspace_variable"), member "name" (.string name)]
  | .literal value => .object [member "kind" (textJson "literal"), member "value" value]
  | .runInput path => .object [member "kind" (textJson "run_input"), member "path" (.string path)]
  | .nodeOutput nodeId path =>
      .object [member "kind" (textJson "node_output"), member "nodeId" (.string nodeId),
        member "path" (.string path)]
  | .nodeFailure nodeId path =>
      .object [member "kind" (textJson "node_failure"), member "nodeId" (.string nodeId),
        member "path" (.string path)]
  | .expression source =>
      .object [member "kind" (textJson "expression"), member "language" (textJson "jsonata"),
        member "expression" (.string source)]
  | .structuredInput port path =>
      .object [member "kind" (textJson "structured_input"), member "port" (.string port),
        member "path" (.string path)]

def EdgeEnd.json (edgeEnd : EdgeEnd) : GraphValue Number :=
  .object [member "nodeId" (.string edgeEnd.nodeId), member "port" (.string edgeEnd.port)]

def WorkflowEdge.json (edge : WorkflowEdge) : GraphValue Number :=
  .object [member "id" (.string edge.id), member "source" edge.source.json,
    member "target" edge.target.json]

def edgesJson (edges : List WorkflowEdge) : GraphValue Number :=
  .array (edges.map WorkflowEdge.json)

def NodeDefinition.json (definition : NodeDefinition Number) : GraphValue Number :=
  .object [member "key" (.string definition.key), member "version" (.number definition.version)]

def Position.json (position : Position Number) : GraphValue Number :=
  .object [member "x" (.number position.x), member "y" (.number position.y)]

def StepRetrySettings.json (retry : StepRetrySettings Number) : GraphValue Number :=
  .object [member "maximumAttempts" (.number retry.maximumAttempts),
    member "delayMillis" (.number retry.delayMillis)]

def WorkflowSettings.json (settings : WorkflowSettings Number) : GraphValue Number :=
  .object (optionalMember "maxRunDurationMs" (settings.maxRunDurationMs.map .number))

def TextRecord.json (record : TextRecord) : GraphValue Number :=
  .object (record.members.map fun entry => (entry.fst, .string entry.snd))

def inputMappingsJson (mappings : List (ScriptString × ValueSource Number)) : GraphValue Number :=
  .object (mappings.map fun mapping => (mapping.fst, mapping.snd.json))

def NodeFields.members (fields : NodeFields Number) : GraphMembers Number :=
  [member "id" (.string fields.id), member "definition" fields.definition.json,
      member "position" fields.position.json, member "configVersion" (.number fields.configVersion),
      member "config" (.object fields.config),
      member "inputMappings" (inputMappingsJson fields.inputMappings),
      member "connectionRefs" fields.connectionRefs.json] ++
    optionalMember "label" (fields.label.map .string) ++
    optionalMember "disabled" (fields.disabled.map .bool) ++
    optionalMember "retry" (fields.retry.map StepRetrySettings.json)

def ScalarType.name : ScalarType -> String
  | .null => "null"
  | .boolean => "boolean"
  | .number => "number"
  | .string => "string"

mutual

def CallableType.json : CallableType Number -> GraphValue Number
  | .scalar type => .object [member "type" (textJson type.name)]
  | .array items maxItems =>
      .object [member "type" (textJson "array"), member "items" items.json,
        member "maxItems" (.number maxItems)]
  | .object properties =>
      .object [member "type" (textJson "object"),
        member "properties" (.array (propertiesJson properties))]

def propertiesJson :
    List (ScriptString × CallableType Number × Bool) -> List (GraphValue Number)
  | [] => []
  | (name, valueType, required) :: rest =>
      .object [member "name" (.string name), member "valueType" valueType.json,
        member "required" (.bool required)] :: propertiesJson rest

end

def CallableDeclaration.json (callable : CallableDeclaration Number) : GraphValue Number :=
  .object [member "input" callable.input.json, member "resultType" callable.resultType.json,
    member "result" callable.result.json]

def NoteColor.name : NoteColor -> String
  | .neutral => "neutral"
  | .teal => "teal"
  | .violet => "violet"
  | .sage => "sage"
  | .amber => "amber"

def NoteSize.json (size : NoteSize Number) : GraphValue Number :=
  .object [member "width" (.number size.width), member "height" (.number size.height)]

def WorkflowNote.json (note : WorkflowNote Number) : GraphValue Number :=
  .object [member "id" (.string note.id), member "text" (.string note.text),
    member "position" note.position.json, member "size" note.size.json,
    member "color" (textJson note.color.name)]

/-!
## Nodes and graphs
-/

def forEachJson (loop : ForEachFields Number) (body : List (GraphValue Number)) :
    GraphValue Number :=
  .object [member "kind" (textJson "for_each"), member "maxIterations" (.number loop.maxIterations),
    member "maxConcurrency" (.number loop.maxConcurrency),
    member "body" (.object [member "nodes" (.array body), member "edges" (edgesJson loop.edges),
      member "settings" loop.settings.json, member "inputPorts" (textsJson loop.inputPorts),
      member "outputPorts" (textsJson loop.outputPorts)])]

mutual

def WorkflowNode.json : WorkflowNode Number -> GraphValue Number
  | .step fields => .object fields.members
  | .structured fields loop body =>
      .object (fields.members ++ [member "structured" (forEachJson loop (nodesJson body))])

def nodesJson : List (WorkflowNode Number) -> List (GraphValue Number)
  | [] => []
  | node :: rest => node.json :: nodesJson rest

end

def WorkflowGraph.json (graph : WorkflowGraph Number) : GraphValue Number :=
  .object ([member "nodes" (.array (nodesJson graph.nodes)), member "edges" (edgesJson graph.edges),
      member "settings" graph.settings.json] ++
    optionalMember "callable" (graph.callable.map CallableDeclaration.json) ++
    optionalMember "notes" (graph.notes.map fun notes => .array (notes.map WorkflowNote.json)))

end

end Portability
end Pertexo
