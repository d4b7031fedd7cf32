import Pertexo.JsonBoundaries.ProgramValues
import Pertexo.Portability.WorkflowGraph
import Pertexo.Values.BoundedJson

/-!
# Admission of graphs

## Limits
-/

namespace Pertexo
namespace Portability

open Canonical
open Library
open Values

structure AdmissionLimits where
  graphBytes : Nat
  inputDepth : Nat
  jsonValueDepth : Nat
  structuredDepth : Nat

inductive AdmissionCode where
  | structuredDepth
  | jsonValueDepth
  | invalidJson
  | graphLimit
deriving DecidableEq, Repr

structure AdmissionFailure where
  code : AdmissionCode
  path : ScriptString
  message : String

def rootPath : ScriptString :=
  scriptString "$"

def memberPath (path key : ScriptString) : ScriptString :=
  path ++ scriptString "." ++ key

def itemPath (path : ScriptString) (index : Nat) : ScriptString :=
  path ++ scriptString ("[" ++ toString index ++ "]")

def graphLimitFailure : AdmissionFailure :=
  { code := .graphLimit, path := rootPath, message := "graph bytes exceed the graph limit" }

def notJsonFailure (path : ScriptString) : AdmissionFailure :=
  { code := .invalidJson, path, message := "value is not JSON" }

def inputDepthFailure (limits : AdmissionLimits) (path : ScriptString) : AdmissionFailure :=
  { code := .jsonValueDepth, path
    message := "graph input depth exceeds " ++ toString limits.inputDepth }

def valueDepthFailure (maximum : Nat) (path : ScriptString) : AdmissionFailure :=
  { code := .jsonValueDepth, path
    message := "JSON value depth exceeds " ++ toString maximum }

def structuredDepthFailure (limits : AdmissionLimits) (path : ScriptString) : AdmissionFailure :=
  { code := .structuredDepth, path
    message := "structured graph depth exceeds " ++ toString limits.structuredDepth }

/-!
## The walk over a document

The walk counts the bytes of the JSON text. The bytes of an object's keys and
punctuation are counted before any of its members is entered.
-/

section

variable {Number : Type}

def keyBytes (members : GraphMembers Number) : Nat :=
  (members.map fun entry => JsonBoundaries.jsonStringByteLength entry.fst none + 1).sum

variable [ScriptNumber Number]

def numberJson : NumberValue Number -> List Char
  | .finite value => ScriptNumber.text value
  | .negativeZero => ['0']
  | .notFinite => "null".toList

def isFiniteNumber : NumberValue Number -> Bool
  | .notFinite => false
  | _ => true

def addBytes (limits : AdmissionLimits) (bytes more : Nat) : Except AdmissionFailure Nat :=
  if bytes + more > limits.graphBytes then .error graphLimitFailure else .ok (bytes + more)

mutual

def inspectValue (limits : AdmissionLimits) (allowNonFiniteNumbers : Bool) :
    GraphValue Number -> ScriptString -> Nat -> Nat -> Except AdmissionFailure Nat
  | .null, path, depth, bytes =>
      if depth > limits.inputDepth then .error (inputDepthFailure limits path)
      else addBytes limits bytes 4
  | .bool value, path, depth, bytes =>
      if depth > limits.inputDepth then .error (inputDepthFailure limits path)
      else addBytes limits bytes (if value then 4 else 5)
  | .number value, path, depth, bytes =>
      if depth > limits.inputDepth then .error (inputDepthFailure limits path)
      else if !isFiniteNumber value && !allowNonFiniteNumbers then .error (notJsonFailure path)
      else addBytes limits bytes (utf8ByteLength (numberJson value))
  | .string text, path, depth, bytes =>
      if depth > limits.inputDepth then .error (inputDepthFailure limits path)
      else addBytes limits bytes (JsonBoundaries.jsonStringByteLength text none)
  | .array items, path, depth, bytes =>
      if depth > limits.inputDepth then .error (inputDepthFailure limits path)
      else do
        let counted <- addBytes limits bytes (2 + (items.length - 1))
        inspectItems limits allowNonFiniteNumbers items path 0 (depth + 1) counted
  | .object members, path, depth, bytes =>
      if depth > limits.inputDepth then .error (inputDepthFailure limits path)
      else do
        let counted <- addBytes limits bytes (2 + (members.length - 1) + keyBytes members)
        inspectMembers limits allowNonFiniteNumbers members path (depth + 1) counted

def inspectItems (limits : AdmissionLimits) (allowNonFiniteNumbers : Bool) :
    List (GraphValue Number) -> ScriptString -> Nat -> Nat -> Nat -> Except AdmissionFailure Nat
  | [], _, _, _, bytes => .ok bytes
  | item :: rest, path, index, depth, bytes => do
      let counted <- inspectValue limits allowNonFiniteNumbers item
        (itemPath path index) depth bytes
      inspectItems limits allowNonFiniteNumbers rest path (index + 1) depth counted

def inspectMembers (limits : AdmissionLimits) (allowNonFiniteNumbers : Bool) :
    GraphMembers Number -> ScriptString -> Nat -> Nat -> Except AdmissionFailure Nat
  | [], _, _, bytes => .ok bytes
  | (name, value) :: rest, path, depth, bytes => do
      let counted <- inspectValue limits allowNonFiniteNumbers value (memberPath path name) depth
        bytes
      inspectMembers limits allowNonFiniteNumbers rest path depth counted

end

def inspectJsonDocument (limits : AdmissionLimits) (allowNonFiniteNumbers : Bool)
    (document : GraphValue Number) : Except AdmissionFailure Nat :=
  inspectValue limits allowNonFiniteNumbers document rootPath 1 0

end

/-!
## Depths of values

Of the members of an object the last one is walked first.
-/

section

variable {Number : Type}

mutual

def inspectDepth (maximum : Nat) :
    GraphValue Number -> ScriptString -> Nat -> Except AdmissionFailure Unit
  | .array items, path, depth =>
      if depth > maximum then .error (valueDepthFailure maximum path)
      else inspectItemDepths maximum items path 0 (depth + 1)
  | .object members, path, depth =>
      if depth > maximum then .error (valueDepthFailure maximum path)
      else inspectMemberDepths maximum members path (depth + 1)
  | _, path, depth =>
      if depth > maximum then .error (valueDepthFailure maximum path) else .ok ()

def inspectItemDepths (maximum : Nat) :
    List (GraphValue Number) -> ScriptString -> Nat -> Nat -> Except AdmissionFailure Unit
  | [], _, _, _ => .ok ()
  | item :: rest, path, index, depth => do
      inspectDepth maximum item (itemPath path index) depth
      inspectItemDepths maximum rest path (index + 1) depth

def inspectMemberDepths (maximum : Nat) :
    GraphMembers Number -> ScriptString -> Nat -> Except AdmissionFailure Unit
  | [], _, _ => .ok ()
  | (name, value) :: rest, path, depth => do
      inspectMemberDepths maximum rest path depth
      inspectDepth maximum value (memberPath path name) depth

end

/-!
## Facts of a graph

The value need not be a graph. The walk that measures it takes a snapshot of it, and the
facts of a graph are inspected wherever the snapshot has the shape of one.
-/

mutual

def snapshotOf : GraphValue Number -> GraphValue Number
  | .array items => .array (snapshotItems items)
  | .object members => .object (buildObject (snapshotMembers members))
  | .null => .null
  | .bool value => .bool value
  | .number value => .number value
  | .string text => .string text

def snapshotItems : List (GraphValue Number) -> List (GraphValue Number)
  | [] => []
  | item :: rest => snapshotOf item :: snapshotItems rest

def snapshotMembers : GraphMembers Number -> GraphMembers Number
  | [] => []
  | (name, value) :: rest => (name, snapshotOf value) :: snapshotMembers rest

end

theorem snapshotItems_eq (items : List (GraphValue Number)) :
    snapshotItems items = items.map snapshotOf := by
  induction items with
  | nil => rfl
  | cons item rest ih =>
      rw [snapshotItems, ih]
      rfl

theorem snapshotMembers_eq (members : GraphMembers Number) :
    snapshotMembers members =
      members.map fun member => (member.fst, snapshotOf member.snd) := by
  induction members with
  | nil => rfl
  | cons member rest ih =>
      rw [snapshotMembers, ih]
      rfl

def property (members : GraphMembers Number) (key : String) : Option (GraphValue Number) :=
  (members.find? fun member => member.fst == scriptString key).map Prod.snd

/-- A literal without a value is as deep as one that is null. -/
def literalDepthFailure (limits : AdmissionLimits) (mapping : Option (GraphValue Number))
    (path : ScriptString) : Except AdmissionFailure Unit :=
  match mapping with
  | some (.object members) =>
      match property members "kind" with
      | some (.string kind) =>
          if kind == scriptString "literal" then
            inspectDepth limits.jsonValueDepth ((property members "value").getD .null) path 1
          else .ok ()
      | _ => .ok ()
  | _ => .ok ()

def inspectNodeRecord (limits : AdmissionLimits) (nodePath : ScriptString)
    (record : GraphMembers Number) : Except AdmissionFailure Unit := do
  match property record "config" with
  | some config =>
      inspectDepth limits.jsonValueDepth config (memberPath nodePath (scriptString "config")) 1
  | none => .ok ()
  match property record "inputMappings" with
  | some (.object mappings) =>
      mappings.forM fun mapping =>
        literalDepthFailure limits (some mapping.snd)
          (memberPath (memberPath (memberPath nodePath (scriptString "inputMappings")) mapping.fst)
            (scriptString "value"))
  | _ => .ok ()

def inspectNodeRecords (limits : AdmissionLimits) (path : ScriptString)
    (nodes : List (GraphValue Number)) : Except AdmissionFailure Unit :=
  nodes.zipIdx.forM fun entry =>
    match entry.fst with
    | .object record =>
        inspectNodeRecord limits
          (itemPath (memberPath path (scriptString "nodes")) entry.snd) record
    | _ => .ok ()

def inspectGraphRecord (limits : AdmissionLimits) (path : ScriptString)
    (graph : GraphMembers Number) : Except AdmissionFailure Unit := do
  match property graph "callable" with
  | some (.object callable) =>
      literalDepthFailure limits (property callable "result")
        (memberPath path (scriptString "callable.result.value"))
  | _ => .ok ()
  match property graph "nodes" with
  | some (.array nodes) => inspectNodeRecords limits path nodes
  | _ => .ok ()

def checkStructuredDepth (limits : AdmissionLimits) (path : ScriptString) (depth : Nat) :
    Except AdmissionFailure Unit :=
  if depth > limits.structuredDepth then .error (structuredDepthFailure limits path) else .ok ()

mutual

/-- Bodies wait on a stack, so that of the steps of a graph the last one's body is next. -/
def inspectGraphValue (limits : AdmissionLimits) :
    GraphValue Number -> ScriptString -> Nat -> Except AdmissionFailure Unit
  | .null, _, _ => .ok ()
  | .object graph, path, depth => do
      checkStructuredDepth limits path depth
      inspectGraphRecord limits path graph
      inspectGraphBodies limits graph path depth
  | .array _, path, depth => checkStructuredDepth limits path depth
  | .bool _, path, depth => checkStructuredDepth limits path depth
  | .number _, path, depth => checkStructuredDepth limits path depth
  | .string _, path, depth => checkStructuredDepth limits path depth

def inspectGraphBodies (limits : AdmissionLimits) :
    GraphMembers Number -> ScriptString -> Nat -> Except AdmissionFailure Unit
  | [], _, _ => .ok ()
  | (key, value) :: rest, path, depth =>
      if key == scriptString "nodes" then inspectNodeList limits value path depth
      else inspectGraphBodies limits rest path depth

def inspectNodeList (limits : AdmissionLimits) :
    GraphValue Number -> ScriptString -> Nat -> Except AdmissionFailure Unit
  | .array nodes, path, depth => inspectNodeBodies limits nodes path 0 depth
  | .null, _, _ => .ok ()
  | .object _, _, _ => .ok ()
  | .bool _, _, _ => .ok ()
  | .number _, _, _ => .ok ()
  | .string _, _, _ => .ok ()

def inspectNodeBodies (limits : AdmissionLimits) :
    List (GraphValue Number) -> ScriptString -> Nat -> Nat -> Except AdmissionFailure Unit
  | [], _, _, _ => .ok ()
  | node :: rest, path, index, depth => do
      inspectNodeBodies limits rest path (index + 1) depth
      inspectNodeBody limits node (itemPath (memberPath path (scriptString "nodes")) index) depth

def inspectNodeBody (limits : AdmissionLimits) :
    GraphValue Number -> ScriptString -> Nat -> Except AdmissionFailure Unit
  | .object record, nodePath, depth => inspectStructuredMember limits record nodePath depth
  | .null, _, _ => .ok ()
  | .array _, _, _ => .ok ()
  | .bool _, _, _ => .ok ()
  | .number _, _, _ => .ok ()
  | .string _, _, _ => .ok ()

def inspectStructuredMember (limits : AdmissionLimits) :
    GraphMembers Number -> ScriptString -> Nat -> Except AdmissionFailure Unit
  | [], _, _ => .ok ()
  | (key, value) :: rest, nodePath, depth =>
      if key == scriptString "structured" then inspectStructured limits value nodePath depth
      else inspectStructuredMember limits rest nodePath depth

def inspectStructured (limits : AdmissionLimits) :
    GraphValue Number -> ScriptString -> Nat -> Except AdmissionFailure Unit
  | .object structured, nodePath, depth => inspectBodyMember limits structured nodePath depth
  | .null, _, _ => .ok ()
  | .array _, _, _ => .ok ()
  | .bool _, _, _ => .ok ()
  | .number _, _, _ => .ok ()
  | .string _, _, _ => .ok ()

/-- A structured step without a body is as deep as one that has it. -/
def inspectBodyMember (limits : AdmissionLimits) :
    GraphMembers Number -> ScriptString -> Nat -> Except AdmissionFailure Unit
  | [], nodePath, depth =>
      checkStructuredDepth limits (memberPath nodePath (scriptString "structured.body")) (depth + 1)
  | (key, value) :: rest, nodePath, depth =>
      if key == scriptString "body" then
        inspectGraphValue limits value (memberPath nodePath (scriptString "structured.body"))
          (depth + 1)
      else inspectBodyMember limits rest nodePath depth

end

/-- Inspects a value and returns the snapshot with the bytes of its JSON text. -/
def inspectAdmission [ScriptNumber Number] (limits : AdmissionLimits)
    (allowNonFiniteNumbers : Bool) (input : GraphValue Number) :
    Except AdmissionFailure (GraphValue Number × Nat) := do
  let bytes <- inspectJsonDocument limits allowNonFiniteNumbers input
  let snapshot := snapshotOf input
  inspectGraphValue limits snapshot rootPath 0
  return (snapshot, bytes)

def inspectWorkflowGraphAdmission [ScriptNumber Number] (limits : AdmissionLimits)
    (allowNonFiniteNumbers : Bool) (graph : WorkflowGraph Number) :
    Except AdmissionFailure (GraphValue Number × Nat) :=
  inspectAdmission limits allowNonFiniteNumbers graph.json

end

end Portability
end Pertexo
