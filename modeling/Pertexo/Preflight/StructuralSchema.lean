import Pertexo.Library.Sorting
import Pertexo.Preflight.KeyWalks

/-!
# The structural schema of a graph

A strict object refuses keys that it does not name and puts its members in the order of
its shape. A record copies the own keys of its input, without `__proto__`, and so does
every object of a JSON value. Whether a strict object refuses an own `__proto__` or
passes over it depends on the schema library.
-/

namespace Pertexo
namespace Preflight

open Library
open Portability
open Values

section

variable {Number : Type}

structure SchemaLibrary where
  isUuid : ScriptString -> Bool
  passesOverProto : Bool

inductive SchemaName (Number : Type) where
  | scalar (accepts : GraphValue Number -> Bool)
  | json
  | graph
  | body
  | nodes (isBody : Bool)
  | node
  | structured
  | edges (isBody : Bool)
  | edge
  | edgeEnd
  | settings
  | definition
  | position
  | config
  | inputMappings
  | connectionRefs
  | source
  | retry
  | identifiers
  | callable
  | callableType
  | properties
  | property
  | notes
  | note
  | notePosition
  | noteSize

structure SchemaField (Number : Type) where
  name : ScriptString
  schema : SchemaName Number
  optional : Bool

def required (name : String) (schema : SchemaName Number) : SchemaField Number :=
  { name := scriptString name, schema, optional := false }

def optional (name : String) (schema : SchemaName Number) : SchemaField Number :=
  { name := scriptString name, schema, optional := true }

def text (accepts : ScriptString -> Bool) : SchemaName Number :=
  .scalar fun value =>
    match value with
    | .string text => accepts text
    | _ => false

def number (accepts : NumberValue Number -> Bool) : SchemaName Number :=
  .scalar fun value =>
    match value with
    | .number value => accepts value
    | _ => false

def boolean : SchemaName Number :=
  .scalar fun value =>
    match value with
    | .bool _ => true
    | _ => false

def identifier : SchemaName Number :=
  text isIdentifier

def literal (expected : String) : SchemaName Number :=
  text fun text => text == scriptString expected

def anyText : SchemaName Number :=
  text fun _ => true

section

variable [GraphNumber Number]

/-!
## Shapes
-/

def nodeFields : List (SchemaField Number) :=
  [required "id" identifier, required "definition" .definition, required "position" .position,
    required "configVersion" (number isPositiveInteger), required "config" .config,
    required "inputMappings" .inputMappings, required "connectionRefs" .connectionRefs,
    optional "label" anyText, optional "disabled" boolean, optional "retry" .retry,
    optional "structured" .structured]

/-- A value source is a union that its kind decides. -/
def sourceFields (kind : ScriptString) : Option (List (SchemaField Number)) :=
  if kind == scriptString "workspace_variable" then
    some [required "kind" (literal "workspace_variable"),
      required "name" (text isWorkspaceVariableName)]
  else if kind == scriptString "literal" then
    some [required "kind" (literal "literal"), required "value" .json]
  else if kind == scriptString "run_input" then
    some [required "kind" (literal "run_input"), required "path" anyText]
  else if kind == scriptString "node_output" then
    some [required "kind" (literal "node_output"), required "nodeId" identifier,
      required "path" anyText]
  else if kind == scriptString "node_failure" then
    some [required "kind" (literal "node_failure"), required "nodeId" identifier,
      required "path" anyText]
  else if kind == scriptString "expression" then
    some [required "kind" (literal "expression"), required "language" (literal "jsonata"),
      required "expression" anyText]
  else if kind == scriptString "structured_input" then
    some [required "kind" (literal "structured_input"), required "port" identifier,
      required "path" anyText]
  else none

def callableTypeFields (type : ScriptString) : Option (List (SchemaField Number)) :=
  if type == scriptString "array" then
    some [required "type" (literal "array"), required "items" .callableType,
      required "maxItems" (number (isIntegerWithin 0 10000))]
  else if type == scriptString "object" then
    some [required "type" (literal "object"), required "properties" .properties]
  else if [scriptString "null", scriptString "boolean", scriptString "number",
      scriptString "string"].contains type then
    some [required "type" (text fun text => text == type)]
  else none

inductive ObjectShape (Number : Type) where
  | json
  | strict (fields : List (SchemaField Number))
  | record (item : SchemaName Number)
  | refused

def ObjectShape.union (members : GraphMembers Number) (discriminator : String)
    (variants : ScriptString -> Option (List (SchemaField Number))) : ObjectShape Number :=
  match own (scriptString discriminator) members with
  | some (.string kind) =>
      match variants kind with
      | some fields => .strict fields
      | none => .refused
  | _ => .refused

def objectShape (library : SchemaLibrary) (members : GraphMembers Number) :
    SchemaName Number -> ObjectShape Number
  | .json => .json
  | .graph =>
      .strict [required "nodes" (.nodes false), required "edges" (.edges false),
        required "settings" .settings, optional "callable" .callable, optional "notes" .notes]
  | .body =>
      .strict [required "nodes" (.nodes true), required "edges" (.edges true),
        required "settings" .settings, required "inputPorts" .identifiers,
        required "outputPorts" .identifiers]
  | .node => .strict nodeFields
  | .structured =>
      .strict [required "kind" (literal "for_each"),
        required "maxIterations"
          (number (isIntegerWithin 1 workflowGraphLimits.maxLoopIterations)),
        required "maxConcurrency"
          (number (isIntegerWithin 1 workflowGraphLimits.maxLoopConcurrency)),
        required "body" .body]
  | .edge =>
      .strict [required "id" identifier, required "source" .edgeEnd, required "target" .edgeEnd]
  | .edgeEnd => .strict [required "nodeId" identifier, required "port" identifier]
  | .settings => .strict [optional "maxRunDurationMs" (number (isIntegerWithin 1 3600000))]
  | .definition =>
      .strict [required "key" identifier, required "version" (number isPositiveInteger)]
  | .position =>
    .strict [required "x" (number isFiniteNumber), required "y" (number isFiniteNumber)]
  | .config => .record .json
  | .inputMappings => .record .source
  | .connectionRefs => .record identifier
  | .source => ObjectShape.union members "kind" sourceFields
  | .retry =>
      .strict [required "maximumAttempts" (number (isIntegerWithin 1 5)),
        required "delayMillis" (number fun delay => isIntegerWithin 1000 60000 delay &&
          (safeInteger? delay).all fun delay => decide (delay % 1000 = 0))]
  | .callable =>
      .strict [required "input" .callableType, required "resultType" .callableType,
        required "result" .source]
  | .callableType => ObjectShape.union members "type" callableTypeFields
  | .property =>
      .strict [required "name" (text fun name => decide (1 ≤ name.length ∧ name.length ≤ 64)),
        required "valueType" .callableType, required "required" boolean]
  | .note =>
      .strict [required "id" (text library.isUuid),
        required "text" (text fun text => decide (text.length ≤ 4000)),
        required "position" .notePosition, required "size" .noteSize,
        required "color" (text fun color => [scriptString "neutral", scriptString "teal",
          scriptString "violet", scriptString "sage", scriptString "amber"].contains color)]
  | .notePosition =>
      .strict [required "x" (number (isNumberWithin (-100000) 100000)),
        required "y" (number (isNumberWithin (-100000) 100000))]
  | .noteSize =>
      .strict [required "width" (number (isNumberWithin 200 1200)),
        required "height" (number (isNumberWithin 120 1200))]
  | _ => .refused

inductive ArrayShape (Number : Type) where
  | json
  | items (item : SchemaName Number) (accepts : List (GraphValue Number) -> Bool)
  | refused

def noteId : GraphValue Number -> Option (GraphValue Number)
  | .object members => own (scriptString "id") members
  | _ => none

def idText : GraphValue Number -> Option ScriptString
  | .string text => some text
  | _ => none

def arrayShape : SchemaName Number -> ArrayShape Number
  | .json => .json
  | .nodes isBody =>
      .items .node fun nodes => isBody || decide (nodes.length ≤ workflowGraphLimits.nodes)
  | .edges isBody =>
      .items .edge fun edges => isBody || decide (edges.length ≤ workflowGraphLimits.edges)
  | .identifiers => .items identifier fun _ => true
  | .properties => .items .property fun properties => decide (properties.length ≤ 10000)
  | .notes =>
      .items .note fun notes => decide (notes.length ≤ 100) &&
        decide (notes.map fun note => (noteId note).bind idText).Nodup
  | _ => .refused

/-!
## Parsing
-/

/-- The members of a strict object in the order of its shape. -/
def assemble (fields : List (SchemaField Number)) (parsed : GraphMembers Number) :
    Option (GraphValue Number) :=
  if fields.all fun field =>
      field.optional || parsed.any fun member => member.fst == field.name then
    some (.object (sortWith (fun left right =>
      compare (fields.findIdx fun field => field.name == left.fst)
        (fields.findIdx fun field => field.name == right.fst)) parsed))
  else none

def parseScalar (value : GraphValue Number) : SchemaName Number -> Option (GraphValue Number)
  | .scalar accepts => if accepts value then some value else none
  | .json => if isFiniteValue value then some value else none
  | _ => none

mutual

def parse (library : SchemaLibrary) :
    GraphValue Number -> SchemaName Number -> Option (GraphValue Number)
  | .object members, name =>
      match objectShape library members name with
      | .json => if areFiniteMembers members then some (.object (copyMembers members)) else none
      | .strict fields => (parseFields library members fields).bind (assemble fields)
      | .record item => (parseRecord library members item).map .object
      | .refused => none
  | .array items, name =>
      match arrayShape name with
      | .json => if areFiniteItems items then some (.array (copyItems items)) else none
      | .items item accepts =>
          (parseItems library items item).bind fun parsed =>
            if accepts parsed then some (.array parsed) else none
      | .refused => none
  | .null, name => parseScalar .null name
  | .bool value, name => parseScalar (.bool value) name
  | .number value, name => parseScalar (.number value) name
  | .string text, name => parseScalar (.string text) name

def parseItems (library : SchemaLibrary) :
    List (GraphValue Number) -> SchemaName Number -> Option (List (GraphValue Number))
  | [], _ => some []
  | value :: rest, item =>
      match parse library value item with
      | none => none
      | some parsed => (parseItems library rest item).map fun others => parsed :: others

def parseFields (library : SchemaLibrary) :
    GraphMembers Number -> List (SchemaField Number) -> Option (GraphMembers Number)
  | [], _ => some []
  | (key, value) :: rest, fields =>
      if key == protoKey then
        if library.passesOverProto then parseFields library rest fields else none
      else
        match fields.find? fun field => field.name == key with
        | none => none
        | some field =>
            match parse library value field.schema with
            | none => none
            | some parsed =>
                (parseFields library rest fields).map fun others => (key, parsed) :: others

def parseRecord (library : SchemaLibrary) :
    GraphMembers Number -> SchemaName Number -> Option (GraphMembers Number)
  | [], _ => some []
  | (key, value) :: rest, item =>
      if key == protoKey then parseRecord library rest item
      else
        match parse library value item with
        | none => none
        | some parsed => (parseRecord library rest item).map fun others => (key, parsed) :: others

end

def workflowGraphStructuralParse (library : SchemaLibrary) (value : GraphValue Number) :
    Option (GraphValue Number) :=
  parse library value .graph

/-!
## What a parse has done to members and items
-/

theorem parseItems_eq_some {library : SchemaLibrary} {items parsed : List (GraphValue Number)}
    {item : SchemaName Number} (h : parseItems library items item = some parsed) :
    List.Forall₂ (fun value result => parse library value item = some result) items parsed := by
  induction items generalizing parsed with
  | nil =>
      cases h
      exact List.Forall₂.nil
  | cons value rest ih =>
      rw [parseItems] at h
      cases hvalue : parse library value item with
      | none => simp [hvalue] at h
      | some result =>
          simp only [hvalue, Option.map_eq_some_iff] at h
          rcases h with ⟨others, hothers, rfl⟩
          exact List.Forall₂.cons hvalue (ih hothers)

theorem parseFields_eq_some {library : SchemaLibrary} {members parsed : GraphMembers Number}
    {fields : List (SchemaField Number)} (h : parseFields library members fields = some parsed) :
    List.Forall₂ (fun member result => result.fst = member.fst ∧
      exists field, fields.find? (fun field => field.name == member.fst) = some field ∧
        parse library member.snd field.schema = some result.snd)
      (members.filter fun member => keepsKey member.fst) parsed := by
  induction members generalizing parsed with
  | nil =>
      cases h
      exact List.Forall₂.nil
  | cons member rest ih =>
      rcases member with ⟨key, value⟩
      rw [parseFields] at h
      rw [List.filter_cons]
      by_cases hproto : key == protoKey
      · rw [if_pos hproto] at h
        rw [if_neg (by simp [keepsKey, hproto])]
        split at h
        · exact ih h
        · cases h
      · rw [if_neg hproto] at h
        rw [if_pos (by simpa [keepsKey] using hproto)]
        cases hfield : fields.find? fun field => field.name == key with
        | none => simp [hfield] at h
        | some field =>
            cases hvalue : parse library value field.schema with
            | none => simp [hfield, hvalue] at h
            | some result =>
                simp only [hfield, hvalue, Option.map_eq_some_iff] at h
                rcases h with ⟨others, hothers, rfl⟩
                exact List.Forall₂.cons ⟨rfl, field, hfield, hvalue⟩ (ih hothers)

theorem parseRecord_eq_some {library : SchemaLibrary} {members parsed : GraphMembers Number}
    {item : SchemaName Number} (h : parseRecord library members item = some parsed) :
    List.Forall₂ (fun member result => result.fst = member.fst ∧
      parse library member.snd item = some result.snd)
      (members.filter fun member => keepsKey member.fst) parsed := by
  induction members generalizing parsed with
  | nil =>
      cases h
      exact List.Forall₂.nil
  | cons member rest ih =>
      rcases member with ⟨key, value⟩
      rw [parseRecord] at h
      rw [List.filter_cons]
      by_cases hproto : key == protoKey
      · rw [if_pos hproto] at h
        rw [if_neg (by simp [keepsKey, hproto])]
        exact ih h
      · rw [if_neg hproto] at h
        rw [if_pos (by simpa [keepsKey] using hproto)]
        cases hvalue : parse library value item with
        | none => simp [hvalue] at h
        | some result =>
            simp only [hvalue, Option.map_eq_some_iff] at h
            rcases h with ⟨others, hothers, rfl⟩
            exact List.Forall₂.cons ⟨rfl, hvalue⟩ (ih hothers)

/-- A strict parse has the members it was given, in another order and without `__proto__`. -/
theorem parse_strict {library : SchemaLibrary} {members : GraphMembers Number}
    {name : SchemaName Number} {fields : List (SchemaField Number)} {result : GraphValue Number}
    (hshape : objectShape library members name = .strict fields)
    (h : parse library (.object members) name = some result) :
    exists parsed reordered, result = .object reordered ∧ reordered.Perm parsed ∧
      List.Forall₂ (fun member parsed => parsed.fst = member.fst ∧
        exists field, fields.find? (fun field => field.name == member.fst) = some field ∧
          parse library member.snd field.schema = some parsed.snd)
        (members.filter fun member => keepsKey member.fst) parsed ∧
      forall field, field ∈ fields -> field.optional = false ->
        exists member, member ∈ parsed ∧ member.fst = field.name := by
  rw [parse, hshape] at h
  dsimp only at h
  rcases Option.bind_eq_some_iff.mp h with ⟨parsed, hparsed, hassembled⟩
  rw [assemble] at hassembled
  split at hassembled
  · next hcomplete =>
    cases hassembled
    refine ⟨parsed, _, rfl, perm_sortWith _ _, parseFields_eq_some hparsed, ?_⟩
    intro field hfield hrequired
    have hthere := List.all_eq_true.mp hcomplete field hfield
    rw [hrequired, Bool.false_or] at hthere
    rcases List.any_eq_true.mp hthere with ⟨member, hmember, hname⟩
    exact ⟨member, hmember, beq_iff_eq.mp hname⟩
  · cases hassembled

theorem parse_scalar {library : SchemaLibrary} {accepts : GraphValue Number -> Bool}
    {value result : GraphValue Number} (h : parse library value (.scalar accepts) = some result) :
    result = value := by
  cases value with
  | null =>
      rw [parse, parseScalar] at h
      split at h
      · exact (Option.some.inj h).symm
      · cases h
  | bool value =>
      rw [parse, parseScalar] at h
      split at h
      · exact (Option.some.inj h).symm
      · cases h
  | number value =>
      rw [parse, parseScalar] at h
      split at h
      · exact (Option.some.inj h).symm
      · cases h
  | string text =>
      rw [parse, parseScalar] at h
      split at h
      · exact (Option.some.inj h).symm
      · cases h
  | array items =>
      have hshape : arrayShape (.scalar accepts : SchemaName Number) = .refused := rfl
      rw [parse, hshape] at h
      cases h
  | object members =>
      have hshape : objectShape library members (.scalar accepts) = .refused := rfl
      rw [parse, hshape] at h
      cases h

theorem parse_json {library : SchemaLibrary} {value result : GraphValue Number}
    (h : parse library value .json = some result) : result = copyValue value := by
  cases value with
  | array items =>
      rw [parse, arrayShape] at h
      dsimp only at h
      split at h
      · exact (Option.some.inj h).symm
      · cases h
  | object members =>
      rw [parse, objectShape] at h
      dsimp only at h
      split at h
      · exact (Option.some.inj h).symm
      · cases h
  | null => exact (Option.some.inj h).symm
  | bool value => exact (Option.some.inj h).symm
  | number value =>
      rw [parse, parseScalar] at h
      split at h
      · exact (Option.some.inj h).symm
      · cases h
  | string text => exact (Option.some.inj h).symm

end

end

end Preflight
end Pertexo
