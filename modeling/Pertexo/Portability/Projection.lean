import Pertexo.Library.Keyed
import Pertexo.Portability.GraphSchema

/-!
# Portable manifests

## Manifests and bindings
-/

namespace Pertexo
namespace Portability

open Library
open Values

structure DefinitionRequirement (Number : Type) where
  key : ScriptString
  version : NumberValue Number
  configVersion : NumberValue Number

structure PortableConnectionSlot where
  nodeId : ScriptString
  slot : ScriptString
  providerKey : ScriptString
  authType : ScriptString
deriving DecidableEq

structure PortableConnectionBinding where
  nodeId : ScriptString
  slot : ScriptString
  connectionId : ScriptString
deriving DecidableEq

structure PortableIssue where
  code : String
  path : ScriptString
  message : String
deriving DecidableEq

structure WorkflowPortableManifest (Number : Type) where
  graph : WorkflowGraph Number
  definitions : List (DefinitionRequirement Number)
  connectionSlots : List PortableConnectionSlot

structure PortabilityLimits where
  bytes : Nat
  inputDepth : Nat
  requirements : Nat
  connectionSlots : Nat

def workflowPortabilityLimits : PortabilityLimits :=
  { bytes := 2097152
    inputDepth := 256
    requirements := 1000
    connectionSlots := 1000 }

inductive PortableJsonCode where
  | invalid
  | limit
deriving DecidableEq, Repr

inductive PortabilityCode where
  | duplicateNodeId
  | credentialLikeContent
  | unknownDefinition
  | invalidConfig
  | unexpectedConnectionSlot
  | connectionSlotLimit
  | sourceConnectionReference
  | incompatibleRequirements
  | invalidConnectionSlots
  | invalidConnectionBinding
deriving DecidableEq, Repr

inductive PortabilityFailure where
  | graph (failure : GraphFailure)
  | json (code : PortableJsonCode)
  | portability (code : PortabilityCode) (path : ScriptString)

def maxIssuePath : Nat :=
  2048

def portabilityError (code : PortabilityCode) : PortabilityFailure :=
  .portability code rootPath

/-!
## Manifests as JSON values
-/

section

variable {Number : Type}

def DefinitionRequirement.json (requirement : DefinitionRequirement Number) : GraphValue Number :=
  .object [member "key" (.string requirement.key), member "version" (.number requirement.version),
    member "configVersion" (.number requirement.configVersion)]

def requirementsJson (definitions : List (DefinitionRequirement Number)) : GraphValue Number :=
  .object [member "definitions" (.array (definitions.map DefinitionRequirement.json))]

def PortableConnectionSlot.json (slot : PortableConnectionSlot) : GraphValue Number :=
  .object [member "nodeId" (.string slot.nodeId), member "slot" (.string slot.slot),
    member "providerKey" (.string slot.providerKey), member "authType" (.string slot.authType)]

def connectionSlotsJson (slots : List PortableConnectionSlot) : GraphValue Number :=
  .array (slots.map PortableConnectionSlot.json)

def WorkflowPortableManifest.json (manifest : WorkflowPortableManifest Number) :
    GraphValue Number :=
  .object [member "format" (textJson "pertexo.workflow"), member "graph" manifest.graph.json,
    member "requirements" (requirementsJson manifest.definitions),
    member "connectionSlots" (connectionSlotsJson manifest.connectionSlots)]

/-!
## Canonical text

A manifest, its requirements and its slots have no steps of their own, so that
their snapshot is the walk over the document alone.
-/

variable [GraphNumber Number]

def portableAdmissionLimits : AdmissionLimits :=
  { graphBytes := workflowPortabilityLimits.bytes
    inputDepth := workflowPortabilityLimits.inputDepth
    jsonValueDepth := 64
    structuredDepth := 32 }

def AdmissionCode.portable : AdmissionCode -> PortableJsonCode
  | .graphLimit => .limit
  | .jsonValueDepth => .limit
  | .invalidJson => .invalid
  | .structuredDepth => .invalid

def portableSnapshot (value : GraphValue Number) : Except PortabilityFailure (GraphValue Number) :=
  match inspectJsonDocument portableAdmissionLimits false value with
  | .error failure => .error (.json failure.code.portable)
  | .ok _ => .ok value

def compareUnits (left right : ScriptString) : Ordering :=
  if left.map UInt16.toNat < right.map UInt16.toNat then .lt
  else if right.map UInt16.toNat < left.map UInt16.toNat then .gt
  else .eq

mutual

def sortedJson : GraphValue Number -> List Char
  | .null => "null".toList
  | .bool value => if value then "true".toList else "false".toList
  | .number value => numberJson value
  | .string text => quoteText text
  | .array items => '[' :: commaJoin (sortedItems items) ++ [']']
  | .object members =>
      let sorted := sortWith (fun left right => compareUnits left.fst right.fst)
        (sortedMembers members)
      '{' :: commaJoin (sorted.map fun entry => quoteText entry.fst ++ ':' :: entry.snd) ++ ['}']

def sortedItems : List (GraphValue Number) -> List (List Char)
  | [] => []
  | item :: rest => sortedJson item :: sortedItems rest

def sortedMembers : GraphMembers Number -> List (ScriptString × List Char)
  | [] => []
  | (name, value) :: rest => (name, sortedJson value) :: sortedMembers rest

end

def canonicalWorkflowPortableJson (value : GraphValue Number) :
    Except PortabilityFailure (List Char) :=
  (portableSnapshot value).map sortedJson

/-!
## The manifest schema
-/

def isBoundedKey (text : ScriptString) : Bool :=
  decide (1 ≤ text.length) && decide (text.length ≤ 128)

def DefinitionRequirement.isValid (requirement : DefinitionRequirement Number) : Bool :=
  isBoundedKey requirement.key && isPositiveInteger requirement.version &&
    isPositiveInteger requirement.configVersion

def PortableConnectionSlot.isValid (slot : PortableConnectionSlot) : Bool :=
  decide (1 ≤ slot.nodeId.length) && decide (slot.nodeId.length ≤ 1048576) &&
    isBoundedKey slot.slot && isBoundedKey slot.providerKey && isBoundedKey slot.authType

def workflowPortableManifestSchema (isUuid : ScriptString -> Bool)
    (input : WorkflowPortableManifest Number) :
    Except PortabilityFailure (WorkflowPortableManifest Number) := do
  let _ <- portableSnapshot input.json
  let graph <- (workflowGraphSchema isUuid input.graph).mapError .graph
  if input.definitions.all DefinitionRequirement.isValid &&
      decide (input.definitions.length ≤ workflowPortabilityLimits.requirements) &&
      input.connectionSlots.all PortableConnectionSlot.isValid &&
      decide (input.connectionSlots.length ≤ workflowPortabilityLimits.connectionSlots) then
    .ok { input with graph }
  else .error (.graph .schema)

end

/-!
## Projecting and inspecting
-/

def refuseWhen (condition : Bool) (code : PortabilityCode) : Except PortabilityFailure Unit :=
  if condition then .error (portabilityError code) else .ok ()

/-!
## Reviewed shapes
-/

def credentialWords : List ScriptString :=
  [scriptString "auth", scriptString "credential", scriptString "secret", scriptString "token",
    scriptString "apikey", scriptString "api-key", scriptString "api_key"]

def isCredentialLike (key : ScriptString) : Bool :=
  credentialWords.any fun word =>
    (key.map foldUnit).tails.any fun suffix => word.isPrefixOf suffix

section

variable {Number : Type}

mutual

def requireReviewedShape : GraphValue Number -> ScriptString -> Except PortabilityFailure Unit
  | .array items, path => requireReviewedItems items path 0
  | .object members, path =>
      if members.any (fun entry => isCredentialLike entry.fst) then
        .error (.portability .credentialLikeContent (path.take maxIssuePath))
      else requireReviewedMembers members path
  | _, _ => .ok ()

/-- The walk keeps a stack, so that the last child is visited first. -/
def requireReviewedItems :
    List (GraphValue Number) -> ScriptString -> Nat -> Except PortabilityFailure Unit
  | [], _, _ => .ok ()
  | item :: rest, path, index => do
      requireReviewedItems rest path (index + 1)
      requireReviewedShape item (itemPath path index)

def requireReviewedMembers : GraphMembers Number -> ScriptString -> Except PortabilityFailure Unit
  | [], _ => .ok ()
  | (name, value) :: rest, path => do
      requireReviewedMembers rest path
      requireReviewedShape value (memberPath path name)

end

def requireReviewedMapping (nodeId : ScriptString) (mapping : ScriptString × ValueSource Number) :
    Except PortabilityFailure Unit :=
  match mapping.snd with
  | .literal value =>
      requireReviewedShape value
        (scriptString "$.nodes." ++ nodeId ++ scriptString ".inputMappings." ++ mapping.fst)
  | _ => .ok ()

end

/-!
## The catalog
-/

structure PortableConnectionSlotPolicy where
  slot : ScriptString
  providerKey : ScriptString
  authType : ScriptString
  optional : Option Bool

def PortableConnectionSlotPolicy.isRequired (policy : PortableConnectionSlotPolicy) : Bool :=
  !policy.optional.getD false

structure CatalogDefinition (Number : Type) where
  key : ScriptString
  version : NumberValue Number
  configVersion : NumberValue Number
  slots : List PortableConnectionSlotPolicy
  validateConfig : GraphMembers Number -> Bool

structure WorkflowPortabilityCatalog (Number : Type) where
  definitions : List (CatalogDefinition Number)

section

variable {Number : Type} [GraphNumber Number]

def versionText : NumberValue Number -> ScriptString
  | .notFinite => scriptString "NaN"
  | value => (numberJson value).flatMap charUnits

def definitionIdentity (key : ScriptString) (version : NumberValue Number) : ScriptString :=
  key ++ 0 :: versionText version

/-- Two numbers are the same when neither is outside the finite ones and their texts agree. -/
def isSameNumber (left right : NumberValue Number) : Bool :=
  isFiniteNumber left && isFiniteNumber right && numberJson left == numberJson right

/-- A later definition of the catalog replaces an earlier one of the same identity. -/
def definitionOf (catalog : WorkflowPortabilityCatalog Number) (fields : NodeFields Number) :
    Option (CatalogDefinition Number) :=
  catalog.definitions.reverse.find? fun definition =>
    definitionIdentity definition.key definition.version ==
      definitionIdentity fields.definition.key fields.definition.version

/-!
## Facts of a graph
-/

/-- The steps of a graph, nested bodies included, when their ids differ. -/
def portableNodes (graph : WorkflowGraph Number) :
    Except PortabilityFailure (List (NodeFields Number)) :=
  if ((nodesWithin graph.nodes).map NodeFields.id).Nodup then .ok (nodesWithin graph.nodes)
  else .error (portabilityError .duplicateNodeId)

structure PortabilityFacts (Number : Type) where
  definitions : List (DefinitionRequirement Number)
  slots : List PortableConnectionSlot
  required : List (ScriptString × ScriptString)

def DefinitionRequirement.identity (requirement : DefinitionRequirement Number) : ScriptString :=
  definitionIdentity requirement.key requirement.version

def requirementOf (fields : NodeFields Number) : DefinitionRequirement Number :=
  { key := fields.definition.key
    version := fields.definition.version
    configVersion := fields.configVersion }

def connectionSlotOf (fields : NodeFields Number) (policy : PortableConnectionSlotPolicy) :
    PortableConnectionSlot :=
  { nodeId := fields.id
    slot := policy.slot
    providerKey := policy.providerKey
    authType := policy.authType }

def reviewNode (definition : CatalogDefinition Number) (fields : NodeFields Number) :
    Except PortabilityFailure Unit := do
  refuseWhen (!(isSameNumber definition.configVersion fields.configVersion &&
    definition.validateConfig fields.config)) .invalidConfig
  requireReviewedShape (.object fields.config)
    (scriptString "$.nodes." ++ fields.id ++ scriptString ".config")
  fields.inputMappings.forM (requireReviewedMapping fields.id)
  refuseWhen (fields.connectionRefs.keys.any fun slot =>
    !(definition.slots.map PortableConnectionSlotPolicy.slot).contains slot)
    .unexpectedConnectionSlot

def nodeFacts (catalog : WorkflowPortabilityCatalog Number) (held : PortabilityFacts Number)
    (fields : NodeFields Number) : Except PortabilityFailure (PortabilityFacts Number) := do
  match definitionOf catalog fields with
  | none => .error (portabilityError .unknownDefinition)
  | some definition =>
      reviewNode definition fields
      .ok
        { definitions :=
            Keyed.setItems DefinitionRequirement.identity (requirementOf fields) held.definitions
          slots := held.slots ++ definition.slots.map (connectionSlotOf fields)
          required := held.required ++
            (definition.slots.filter PortableConnectionSlotPolicy.isRequired).map
              fun policy => (fields.id, policy.slot) }

def compareRequirements (left right : DefinitionRequirement Number) : Ordering :=
  (compareUnits left.key right.key).then
    (compare ((safeInteger? left.version).getD 0) ((safeInteger? right.version).getD 0))

def compareSlots (left right : PortableConnectionSlot) : Ordering :=
  (compareUnits left.nodeId right.nodeId).then (compareUnits left.slot right.slot)

def facts (graph : WorkflowGraph Number) (catalog : WorkflowPortabilityCatalog Number) :
    Except PortabilityFailure (PortabilityFacts Number) := do
  let nodes <- portableNodes graph
  let held <- nodes.foldlM (nodeFacts catalog) { definitions := [], slots := [], required := [] }
  refuseWhen (decide (held.slots.length > workflowPortabilityLimits.connectionSlots))
    .connectionSlotLimit
  .ok
    { definitions := sortWith compareRequirements held.definitions
      slots := sortWith compareSlots held.slots
      required := held.required }

/-!
## Connections
-/

abbrev ConnectionBindings :=
  List (ScriptString × TextRecord)

def referencesOf (bindings : ConnectionBindings) (nodeId : ScriptString) : TextRecord :=
  match bindings.find? fun binding => binding.fst == nodeId with
  | some binding => binding.snd
  | none => .empty

def bindFields (bindings : ConnectionBindings) (fields : NodeFields Number) : NodeFields Number :=
  { fields with connectionRefs := referencesOf bindings fields.id }

def replaceConnections (graph : WorkflowGraph Number) (bindings : ConnectionBindings) :
    WorkflowGraph Number :=
  graph.mapFields (bindFields bindings)

/-!
## Projection
-/

def projectWorkflowPortableManifest (isUuid : ScriptString -> Bool) (input : WorkflowGraph Number)
    (catalog : WorkflowPortabilityCatalog Number) :
    Except PortabilityFailure (WorkflowPortableManifest Number) := do
  let graph <- (parseWorkflowGraphDraft isUuid input).mapError .graph
  let selected <- facts graph catalog
  workflowPortableManifestSchema isUuid
    { graph := replaceConnections graph []
      definitions := selected.definitions
      connectionSlots := selected.slots }

/-!
## Inspection
-/

structure BoundConnections where
  seen : List (ScriptString × ScriptString)
  references : ConnectionBindings

def bindConnection (expected : List (ScriptString × ScriptString)) (held : BoundConnections)
    (binding : PortableConnectionBinding) : Except PortabilityFailure BoundConnections :=
  let token := (binding.nodeId, binding.slot)
  if !expected.contains token || held.seen.contains token then
    .error (portabilityError .invalidConnectionBinding)
  else
    .ok
      { seen := held.seen ++ [token]
        references := Keyed.setItems Prod.fst
          (binding.nodeId,
            (referencesOf held.references binding.nodeId).define binding.slot binding.connectionId)
          held.references }

def bindingRequiredIssue : PortableIssue :=
  { code := "connection_binding_required"
    path := scriptString "$.bindings"
    message := "Choose a destination connection for every required slot" }

structure InspectedManifest (Number : Type) where
  graph : WorkflowGraph Number
  issues : List PortableIssue

def requireCanonical (declared derived : GraphValue Number) (code : PortabilityCode) :
    Except PortabilityFailure Unit := do
  let left <- canonicalWorkflowPortableJson declared
  let right <- canonicalWorkflowPortableJson derived
  refuseWhen (left != right) code

def inspectWorkflowPortableManifest (isUuid : ScriptString -> Bool)
    (rawManifest : WorkflowPortableManifest Number) (bindings : List PortableConnectionBinding)
    (catalog : WorkflowPortabilityCatalog Number) :
    Except PortabilityFailure (InspectedManifest Number) := do
  let manifest <- workflowPortableManifestSchema isUuid rawManifest
  let graph <- (parseWorkflowGraphDraft isUuid manifest.graph).mapError .graph
  let nodes <- portableNodes graph
  refuseWhen (nodes.any fun fields => !fields.connectionRefs.keys.isEmpty)
    .sourceConnectionReference
  let selected <- facts graph catalog
  requireCanonical (requirementsJson manifest.definitions) (requirementsJson selected.definitions)
    .incompatibleRequirements
  requireCanonical (connectionSlotsJson manifest.connectionSlots : GraphValue Number)
    (connectionSlotsJson selected.slots) .invalidConnectionSlots
  let expected := selected.slots.map fun slot => (slot.nodeId, slot.slot)
  let bound <- bindings.foldlM (bindConnection expected) { seen := [], references := [] }
  .ok
    { graph := replaceConnections graph bound.references
      issues :=
        if selected.required.any fun token => !bound.seen.contains token then
          [bindingRequiredIssue]
        else [] }

end

end Portability
end Pertexo
