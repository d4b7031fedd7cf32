import Pertexo.Preflight.KeptMembers
import Pertexo.Values.JsonText

/-!
# Keys survive the preflight

A snapshot that is escaped, parsed and restored has the keys and values it had. Lost is an
own `__proto__` outside its configs, the names of its mappings and its literals.
-/

namespace Pertexo
namespace Preflight

open Canonical
open Library
open Portability
open Values

section

variable {Number : Type}

/-!
## What is kept
-/

mutual

def keptGraph : GraphValue Number -> GraphValue Number
  | .object members => .object (keptGraphMembers members)
  | .array items => .array items
  | .null => .null
  | .bool value => .bool value
  | .number value => .number value
  | .string text => .string text

def keptGraphMembers : GraphMembers Number -> GraphMembers Number
  | [] => []
  | (key, value) :: rest =>
      if key == protoKey then keptGraphMembers rest
      else (key, if key == scriptString "nodes" then keptNodes value
        else if key == scriptString "callable" then keptCallable value
        else copyValue value) :: keptGraphMembers rest

def keptNodes : GraphValue Number -> GraphValue Number
  | .array items => .array (keptNodeItems items)
  | .object members => .object members
  | .null => .null
  | .bool value => .bool value
  | .number value => .number value
  | .string text => .string text

def keptNodeItems : List (GraphValue Number) -> List (GraphValue Number)
  | [] => []
  | item :: rest => keptNode item :: keptNodeItems rest

def keptNode : GraphValue Number -> GraphValue Number
  | .object members => .object (keptNodeMembers members)
  | .array items => .array items
  | .null => .null
  | .bool value => .bool value
  | .number value => .number value
  | .string text => .string text

def keptNodeMembers : GraphMembers Number -> GraphMembers Number
  | [] => []
  | (key, value) :: rest =>
      if key == protoKey then keptNodeMembers rest
      else (key, if key == scriptString "structured" then keptStructured value
        else keptField key value) :: keptNodeMembers rest

def keptStructured : GraphValue Number -> GraphValue Number
  | .object members => .object (keptStructuredMembers members)
  | .array items => .array items
  | .null => .null
  | .bool value => .bool value
  | .number value => .number value
  | .string text => .string text

def keptStructuredMembers : GraphMembers Number -> GraphMembers Number
  | [] => []
  | (key, value) :: rest =>
      if key == protoKey then keptStructuredMembers rest
      else (key, if key == scriptString "body" then keptGraph value else copyValue value) ::
        keptStructuredMembers rest

end

def keptAtGraph (key : ScriptString) (value : GraphValue Number) : GraphValue Number :=
  if key == scriptString "nodes" then keptNodes value
  else if key == scriptString "callable" then keptCallable value
  else copyValue value

def keptAtNode (key : ScriptString) (value : GraphValue Number) : GraphValue Number :=
  if key == scriptString "structured" then keptStructured value else keptField key value

def keptAtStructured (key : ScriptString) (value : GraphValue Number) : GraphValue Number :=
  if key == scriptString "body" then keptGraph value else copyValue value

theorem filter_keepsKey_cons (key : ScriptString) (value : GraphValue Number)
    (rest : GraphMembers Number) :
    ((key, value) :: rest).filter (fun member => keepsKey member.fst) =
      if key == protoKey then rest.filter fun member => keepsKey member.fst
      else (key, value) :: rest.filter fun member => keepsKey member.fst := by
  rw [List.filter_cons, keepsKey]
  cases key == protoKey <;> rfl

theorem keptGraphMembers_eq (members : GraphMembers Number) :
    keptGraphMembers members = (members.filter fun member => keepsKey member.fst).map fun member =>
      (member.fst, keptAtGraph member.fst member.snd) := by
  induction members with
  | nil => rfl
  | cons member rest ih =>
      rw [keptGraphMembers, filter_keepsKey_cons, ih]
      cases member.fst == protoKey <;> rfl

theorem keptNodeItems_eq (items : List (GraphValue Number)) :
    keptNodeItems items = items.map keptNode := by
  induction items with
  | nil => rfl
  | cons item rest ih =>
      rw [keptNodeItems, ih]
      rfl

theorem keptNodeMembers_eq (members : GraphMembers Number) :
    keptNodeMembers members = (members.filter fun member => keepsKey member.fst).map fun member =>
      (member.fst, keptAtNode member.fst member.snd) := by
  induction members with
  | nil => rfl
  | cons member rest ih =>
      rw [keptNodeMembers, filter_keepsKey_cons, ih]
      cases member.fst == protoKey <;> rfl

theorem keptStructuredMembers_eq (members : GraphMembers Number) :
    keptStructuredMembers members =
      (members.filter fun member => keepsKey member.fst).map fun member =>
        (member.fst, keptAtStructured member.fst member.snd) := by
  induction members with
  | nil => rfl
  | cons member rest ih =>
      rw [keptStructuredMembers, filter_keepsKey_cons, ih]
      cases member.fst == protoKey <;> rfl

/-!
## Fields of graphs and steps
-/

section

variable [GraphNumber Number] {library : SchemaLibrary}

def graphName (isBody : Bool) : SchemaName Number :=
  if isBody then .body else .graph

def graphFields (isBody : Bool) : List (SchemaField Number) :=
  if isBody then
    [required "nodes" (.nodes true), required "edges" (.edges true),
      required "settings" .settings, required "inputPorts" .identifiers,
      required "outputPorts" .identifiers]
  else
    [required "nodes" (.nodes false), required "edges" (.edges false),
      required "settings" .settings, optional "callable" .callable, optional "notes" .notes]

def structuredFields : List (SchemaField Number) :=
  [required "kind" (literal "for_each"),
    required "maxIterations" (number (isIntegerWithin 1 workflowGraphLimits.maxLoopIterations)),
    required "maxConcurrency"
      (number (isIntegerWithin 1 workflowGraphLimits.maxLoopConcurrency)),
    required "body" .body]

theorem objectShape_graph (members : GraphMembers Number) (isBody : Bool) :
    objectShape library members (graphName isBody) = .strict (graphFields isBody) := by
  cases isBody <;> rfl

theorem plain_names :
    (forall name, name ∈ ["edges", "settings", "inputPorts", "outputPorts", "notes"] ->
      (scriptString name == scriptString "nodes") = false ∧
        (scriptString name == scriptString "callable") = false) ∧
    (forall name, name ∈ ["id", "definition", "position", "configVersion", "connectionRefs",
        "label", "disabled", "retry"] ->
      (scriptString name == scriptString "structured") = false ∧
        (scriptString name == scriptString "config") = false ∧
          (scriptString name == scriptString "inputMappings") = false) ∧
    (forall name, name ∈ ["kind", "maxIterations", "maxConcurrency"] ->
      (scriptString name == scriptString "body") = false) ∧
    (scriptString "callable" == scriptString "nodes") = false ∧
    (scriptString "config" == scriptString "structured") = false ∧
    (scriptString "inputMappings" == scriptString "structured") = false ∧
    (scriptString "inputMappings" == scriptString "config") = false := by
  decide +kernel

omit [GraphNumber Number] in
theorem graphFields_cases {isBody : Bool} {field : SchemaField Number}
    (h : field ∈ graphFields isBody) :
    (isPlain field.schema = true ∧ (field.name == scriptString "nodes") = false ∧
      (field.name == scriptString "callable") = false) ∨
        field = required "nodes" (.nodes isBody) ∨
          isBody = false ∧ field = optional "callable" .callable := by
  have hnames := plain_names.left
  cases isBody with
  | false =>
      rw [graphFields, if_neg Bool.false_ne_true] at h
      simp only [List.mem_cons, List.not_mem_nil, or_false] at h
      rcases h with rfl | rfl | rfl | rfl | rfl
      · exact Or.inr (Or.inl rfl)
      · exact Or.inl ⟨rfl, hnames "edges" (by simp)⟩
      · exact Or.inl ⟨rfl, hnames "settings" (by simp)⟩
      · exact Or.inr (Or.inr ⟨rfl, rfl⟩)
      · exact Or.inl ⟨rfl, hnames "notes" (by simp)⟩
  | true =>
      rw [graphFields, if_pos rfl] at h
      simp only [List.mem_cons, List.not_mem_nil, or_false] at h
      rcases h with rfl | rfl | rfl | rfl | rfl
      · exact Or.inr (Or.inl rfl)
      · exact Or.inl ⟨rfl, hnames "edges" (by simp)⟩
      · exact Or.inl ⟨rfl, hnames "settings" (by simp)⟩
      · exact Or.inl ⟨rfl, hnames "inputPorts" (by simp)⟩
      · exact Or.inl ⟨rfl, hnames "outputPorts" (by simp)⟩

theorem structuredFields_cases {field : SchemaField Number}
    (h : field ∈ structuredFields) :
    (isPlain field.schema = true ∧ (field.name == scriptString "body") = false) ∨
      field = required "body" .body := by
  have hnames := plain_names.right.right.left
  rw [structuredFields] at h
  simp only [List.mem_cons, List.not_mem_nil, or_false] at h
  rcases h with rfl | rfl | rfl | rfl
  · exact Or.inl ⟨rfl, hnames "kind" (by simp)⟩
  · exact Or.inl ⟨rfl, hnames "maxIterations" (by simp)⟩
  · exact Or.inl ⟨rfl, hnames "maxConcurrency" (by simp)⟩
  · exact Or.inr rfl

theorem nodeFields_cases {field : SchemaField Number} (h : field ∈ nodeFields) :
    (isPlain field.schema = true ∧ (field.name == scriptString "structured") = false ∧
      (field.name == scriptString "config") = false ∧
        (field.name == scriptString "inputMappings") = false) ∨
      field = required "config" .config ∨ field = required "inputMappings" .inputMappings ∨
        field = optional "structured" .structured := by
  have hnames := plain_names.right.left
  rw [nodeFields] at h
  simp only [List.mem_cons, List.not_mem_nil, or_false] at h
  rcases h with rfl | rfl | rfl | rfl | rfl | rfl | rfl | rfl | rfl | rfl | rfl
  · exact Or.inl ⟨rfl, hnames "id" (by simp)⟩
  · exact Or.inl ⟨rfl, hnames "definition" (by simp)⟩
  · exact Or.inl ⟨rfl, hnames "position" (by simp)⟩
  · exact Or.inl ⟨rfl, hnames "configVersion" (by simp)⟩
  · exact Or.inr (Or.inl rfl)
  · exact Or.inr (Or.inr (Or.inl rfl))
  · exact Or.inl ⟨rfl, hnames "connectionRefs" (by simp)⟩
  · exact Or.inl ⟨rfl, hnames "label" (by simp)⟩
  · exact Or.inl ⟨rfl, hnames "disabled" (by simp)⟩
  · exact Or.inl ⟨rfl, hnames "retry" (by simp)⟩
  · exact Or.inr (Or.inr (Or.inr rfl))

/-!
## One value at a time

A value may stand where a graph, its list of steps, a step or the structure of a step is.
-/

structure KeptWithin (library : SchemaLibrary) (value : GraphValue Number) : Prop where
  graph : forall isBody result,
    parse library (cloneWithEscapedKeys.graph isBody value) (graphName isBody) = some result ->
      Same (restoringWalk.graph isBody result) (keptGraph value)
  nodes : forall isBody result,
    parse library (cloneWithEscapedKeys.nodes value) (.nodes isBody) = some result ->
      Same (restoringWalk.nodes result) (keptNodes value)
  node : forall result, parse library (cloneWithEscapedKeys.node value) .node = some result ->
    Same (restoringWalk.node result) (keptNode value)
  structured : forall result,
    parse library (cloneWithEscapedKeys.structured value) .structured = some result ->
      Same (restoringWalk.structured result) (keptStructured value)

theorem array_of_parse {value result : GraphValue Number} {isBody : Bool}
    (h : parse library value (.nodes isBody) = some result) :
    exists items, value = .array items := by
  cases value with
  | array items => exact ⟨items, rfl⟩
  | object members =>
      have hshape : objectShape library members (.nodes isBody) = .refused := rfl
      rw [parse, hshape] at h
      cases h
  | null => cases h
  | bool value => cases h
  | number value => cases h
  | string text => cases h

omit [GraphNumber Number] in
theorem needsObject_graphName (isBody : Bool) :
    needsObject (graphName isBody : SchemaName Number) = true := by
  cases isBody <;> rfl

theorem keptWithin_array {items : List (GraphValue Number)}
    (ih : forall item, item ∈ items -> KeptWithin library item) :
    KeptWithin library (.array items) := by
  constructor
  · intro isBody result h
    exact absurd (object_of_parse (needsObject_graphName isBody) h) (by rintro ⟨_, ⟨⟩⟩)
  · intro isBody result h
    have hshape : arrayShape (.nodes isBody : SchemaName Number) = .items .node fun nodes =>
        isBody || decide (nodes.length ≤ workflowGraphLimits.nodes) := rfl
    rw [GraphWalk.nodes, nodeItems_eq, parse, hshape] at h
    rcases Option.bind_eq_some_iff.mp h with ⟨parsed, hparsed, haccepted⟩
    have heach := parseItems_eq_some hparsed
    split at haccepted
    · next haccepts =>
      cases haccepted
      rw [GraphWalk.nodes, nodeItems_eq, keptNodes, keptNodeItems_eq]
      apply Same.array
      apply sameItems_of_forall₂
      rw [List.forall₂_map_left_iff, List.forall₂_map_right_iff]
      rw [List.forall₂_map_left_iff] at heach
      clear hparsed h haccepts
      induction heach with
      | nil => exact List.Forall₂.nil
      | cons hfirst _ ihRest =>
          exact List.Forall₂.cons ((ih _ (List.mem_cons_self ..)).node _ hfirst)
            (ihRest fun other hother => ih other (List.mem_cons_of_mem _ hother))
    · cases haccepted
  · intro result h
    exact absurd (object_of_parse rfl h) (by rintro ⟨_, ⟨⟩⟩)
  · intro result h
    exact absurd (object_of_parse rfl h) (by rintro ⟨_, ⟨⟩⟩)

theorem keptWithin_scalar {value : GraphValue Number} (hitems : forall items, value ≠ .array items)
    (hmembers : forall members, value ≠ .object members) : KeptWithin library value := by
  have hgraph : forall isBody, cloneWithEscapedKeys.graph isBody value = value := by
    intro isBody
    cases value with
    | object members => exact absurd rfl (hmembers members)
    | _ => rfl
  have hnodes : cloneWithEscapedKeys.nodes value = value := by
    cases value with
    | array items => exact absurd rfl (hitems items)
    | _ => rfl
  have hnode : cloneWithEscapedKeys.node value = value := by
    cases value with
    | object members => exact absurd rfl (hmembers members)
    | _ => rfl
  have hstructured : cloneWithEscapedKeys.structured value = value := by
    cases value with
    | object members => exact absurd rfl (hmembers members)
    | _ => rfl
  have hno : forall {name : SchemaName Number} {result : GraphValue Number},
      needsObject name = true -> parse library value name = some result -> False := by
    intro name result hname h
    rcases object_of_parse hname h with ⟨members, hvalue⟩
    exact hmembers members hvalue
  constructor
  · intro isBody result h
    rw [hgraph] at h
    exact (hno (needsObject_graphName isBody) h).elim
  · intro isBody result h
    rw [hnodes] at h
    rcases array_of_parse h with ⟨items, hvalue⟩
    exact absurd hvalue (hitems items)
  · intro result h
    rw [hnode] at h
    exact (hno rfl h).elim
  · intro result h
    rw [hstructured] at h
    exact (hno rfl h).elim

omit [GraphNumber Number] in
theorem own_of_mem {members : GraphMembers Number} (horder : OwnOrder members)
    {member : ScriptString × GraphValue Number} (hmember : member ∈ members) :
    own member.fst members = some member.snd := by
  apply own_of_all ⟨member, hmember, rfl⟩
  intro other hother hkey
  have hnodup : (members.map Prod.fst).Nodup :=
    List.pairwise_map.mpr (horder.imp fun hbefore => ne_of_comesBefore hbefore)
  rw [List.inj_on_of_nodup_map hnodup hother hmember hkey]

omit [GraphNumber Number] in
theorem nodes_mem_graphFields (isBody : Bool) :
    (required "nodes" (.nodes isBody) : SchemaField Number) ∈ graphFields isBody := by
  cases isBody <;> exact List.mem_cons_self ..

/-- A graph that parses has steps, so that the guard of the first walk lets it through. -/
theorem hasSteps_of_parse {members : GraphMembers Number} {isBody : Bool}
    {result : GraphValue Number} (horder : OwnOrder members)
    (h : parse library (.object members) (graphName isBody) = some result) :
    hasSteps members = true := by
  rcases parse_strict (objectShape_graph members isBody) h with
    ⟨parsed, reordered, rfl, hperm, heach, hrequired⟩
  rcases hrequired _ (nodes_mem_graphFields isBody) rfl with ⟨member, hmember, hkey⟩
  rcases exists_of_mem_right heach hmember with ⟨source, hsource, hname, field, hfind, hparse⟩
  have hnodes : field = required "nodes" (.nodes isBody) := by
    have hfirst : (graphFields isBody).find? (fun field => field.name == source.fst) =
        some (required "nodes" (.nodes isBody) : SchemaField Number) := by
      rw [← hname, hkey]
      cases isBody <;> rfl
    exact Option.some.inj (hfind.symm.trans hfirst)
  rw [hnodes] at hparse
  rcases array_of_parse hparse with ⟨items, hitems⟩
  have hown := own_of_mem horder (List.mem_filter.mp hsource).left
  rw [← hname, hkey, hitems] at hown
  rw [hasSteps]
  rw [required] at hown
  rw [hown]

theorem same_atGraph {isBody : Bool} {key : ScriptString} {value parsed : GraphValue Number}
    {field : SchemaField Number} (hordered : value.Ordered) (hkept : KeptWithin library value)
    (hfield : field ∈ graphFields isBody) (hname : field.name = key)
    (h : parse library (cloneWithEscapedKeys.atGraph isBody key value) field.schema =
      some parsed) :
    Same (restoringWalk.atGraph isBody key parsed) (keptAtGraph key value) := by
  rw [← hname] at h ⊢
  rw [GraphWalk.atGraph] at h ⊢
  rw [keptAtGraph]
  rcases graphFields_cases hfield with ⟨hplain, hnodes, hcallable⟩ | rfl | ⟨rfl, rfl⟩
  · simp only [hnodes, hcallable, Bool.false_eq_true, if_false] at h ⊢
    exact same_of_plain value field.schema parsed hplain h
  · exact hkept.nodes isBody parsed h
  · have hother := plain_names.right.right.right.left
    simp only [optional, hother, beq_self_eq_true, Bool.false_eq_true, if_false, if_true] at h ⊢
    exact same_callable hordered h

theorem same_atNode {key : ScriptString} {value parsed : GraphValue Number}
    {field : SchemaField Number} (hordered : value.Ordered) (hkept : KeptWithin library value)
    (hfield : field ∈ nodeFields) (hname : field.name = key)
    (h : parse library (cloneWithEscapedKeys.atNode key value) field.schema = some parsed) :
    Same (restoringWalk.atNode key parsed) (keptAtNode key value) := by
  rw [← hname] at h ⊢
  rw [GraphWalk.atNode] at h ⊢
  rw [keptAtNode]
  rcases plain_names.right.right.right.right with ⟨hconfig, hmappings, hbetween⟩
  rcases nodeFields_cases hfield with ⟨hplain, hstructured, hother⟩ | rfl | rfl | rfl
  · simp only [hstructured, hother, cloneWithEscapedKeys, restoringWalk, renameField, keptField,
      Bool.false_eq_true, if_false] at h ⊢
    exact same_of_plain value field.schema parsed hplain h
  · simp only [required, hconfig, cloneWithEscapedKeys, restoringWalk, renameField, keptField,
      beq_self_eq_true, Bool.false_eq_true, if_false, if_true] at h ⊢
    rw [config_kept hordered h]
    exact Same.refl value
  · simp only [required, hmappings, hbetween, cloneWithEscapedKeys, restoringWalk, renameField,
      keptField, beq_self_eq_true, Bool.false_eq_true, if_false, if_true] at h ⊢
    exact same_mappings hordered h
  · exact hkept.structured parsed h

theorem same_atStructured {key : ScriptString} {value parsed : GraphValue Number}
    {field : SchemaField Number} (hkept : KeptWithin library value)
    (hfield : field ∈ structuredFields) (hname : field.name = key)
    (h : parse library (cloneWithEscapedKeys.atStructured key value) field.schema =
      some parsed) :
    Same (restoringWalk.atStructured key parsed) (keptAtStructured key value) := by
  rw [← hname] at h ⊢
  rw [GraphWalk.atStructured] at h ⊢
  rw [keptAtStructured]
  rcases structuredFields_cases hfield with ⟨hplain, hbody⟩ | rfl
  · simp only [hbody, Bool.false_eq_true, if_false] at h ⊢
    exact same_of_plain value field.schema parsed hplain h
  · exact hkept.graph true parsed h

theorem keptWithin_object {members : GraphMembers Number} (horder : OwnOrder members)
    (hordered : forall member, member ∈ members -> member.snd.Ordered)
    (ih : forall member, member ∈ members -> KeptWithin library member.snd) :
    KeptWithin library (.object members) := by
  constructor
  · intro isBody result h
    have hsteps : hasSteps members = true := by
      cases hsteps : hasSteps members with
      | true => rfl
      | false =>
          rw [GraphWalk.graph, if_pos (by rw [hsteps]; rfl)] at h
          rw [← hsteps]
          exact hasSteps_of_parse horder h
    rw [GraphWalk.graph, if_neg (by rw [hsteps]; simp), graphMembers_eq] at h
    rcases same_strict (objectShape_graph _ isBody) h (fun member hmember field hfield hname =>
        fun parsed => same_atGraph (hordered member hmember) (ih member hmember) hfield hname) with
      ⟨reordered, rfl, hsame⟩
    rw [keptGraph, keptGraphMembers_eq, GraphWalk.graph, if_neg (by simp [restoringWalk]),
      graphMembers_eq]
    exact hsame
  · intro isBody result h
    rcases array_of_parse h with ⟨items, hitems⟩
    cases hitems
  · intro result h
    rw [GraphWalk.node, nodeMembers_eq] at h
    rcases same_strict rfl h (fun member hmember field hfield hname =>
        fun parsed => same_atNode (hordered member hmember) (ih member hmember) hfield hname) with
      ⟨reordered, rfl, hsame⟩
    rw [keptNode, keptNodeMembers_eq, GraphWalk.node, nodeMembers_eq]
    exact hsame
  · intro result h
    rw [GraphWalk.structured, structuredMembers_eq] at h
    rcases same_strict rfl h (fun member hmember field hfield hname =>
        fun parsed => same_atStructured (ih member hmember) hfield hname) with
      ⟨reordered, rfl, hsame⟩
    rw [keptStructured, keptStructuredMembers_eq, GraphWalk.structured, structuredMembers_eq]
    exact hsame

theorem keptWithin_of_ordered (value : GraphValue Number) :
    value.Ordered -> KeptWithin library value := by
  induction value using value_induction with
  | hscalar value hitems hmembers => exact fun _ => keptWithin_scalar hitems hmembers
  | harray items ih =>
      intro hordered
      exact keptWithin_array fun item hitem =>
        ih item hitem (orderedItems_iff.mp hordered item hitem)
  | hobject members ih =>
      rintro ⟨horder, hordered⟩
      have heach := orderedMembers_iff.mp hordered
      exact keptWithin_object horder heach fun member hmember =>
        ih member hmember (heach member hmember)

/-!
## The preflight
-/

theorem preflight_keeps_keys (library : SchemaLibrary) (snapshot graph : GraphValue Number)
    (hordered : snapshot.Ordered)
    (hparse : workflowGraphStructuralParse library (escapeDroppedKeys snapshot) = some graph) :
    Same (restoreDroppedKeys graph) (keptGraph snapshot) :=
  (keptWithin_of_ordered snapshot hordered).graph false graph hparse

end

end

/-!
## Steps with every kind of key
-/

@[reducible] def sampleNumbers : GraphNumber Nat where
  toScriptNumber := inferInstance
  safeInteger := fun n => some n
  compareInteger := fun n bound => compare (n : Int) bound

def sampleLibrary : SchemaLibrary where
  isUuid := fun _ => true
  passesOverProto := true

def sampleText (text : String) : GraphValue Nat :=
  .string (scriptString text)

def sampleObject (members : List (String × GraphValue Nat)) : GraphValue Nat :=
  .object (members.map fun member => (scriptString member.fst, member.snd))

/-- A step that has an own `__proto__` in its config, its mappings and its connections. -/
def sampleStep (id : String) (more : List (String × GraphValue Nat)) : GraphValue Nat :=
  sampleObject ([
    ("id", sampleText id),
    ("definition", sampleObject [("key", sampleText "k"), ("version", .number (.finite 1))]),
    ("position", sampleObject [("x", .number (.finite 0)), ("y", .number (.finite 0))]),
    ("configVersion", .number (.finite 1)),
    ("config", sampleObject [("__proto__", sampleText "c")]),
    ("inputMappings", sampleObject [("__proto__", sampleObject [
      ("kind", sampleText "literal"),
      ("value", sampleObject [("\x00pertexo.input-mapping.proto", .null),
        ("__proto__", .null)])])]),
    ("connectionRefs", sampleObject [("__proto__", sampleText "r")])] ++ more)

/-- A For Each step with such a step in its body. -/
def sampleSnapshot : GraphValue Nat :=
  sampleObject [
    ("nodes", .array [sampleStep "a" [("structured", sampleObject [
      ("kind", sampleText "for_each"),
      ("maxIterations", .number (.finite 10)),
      ("maxConcurrency", .number (.finite 2)),
      ("body", sampleObject [
        ("nodes", .array [sampleStep "b" []]),
        ("edges", .array []),
        ("settings", sampleObject []),
        ("inputPorts", .array [sampleText "item"]),
        ("outputPorts", .array [sampleText "out"])])])]]),
    ("edges", .array []),
    ("settings", sampleObject [])]

set_option synthInstance.maxSize 512 in
theorem sampleSnapshot_ordered : sampleSnapshot.Ordered := by
  simp only [sampleSnapshot, sampleStep, sampleObject, sampleText, BoundedJsonValue.Ordered,
    OrderedItems,
    OrderedMembers, OwnOrder, List.cons_append, List.nil_append, List.map_cons, List.map_nil]
  decide +kernel

theorem sampleSnapshot_parses :
    (@workflowGraphStructuralParse Nat sampleNumbers sampleLibrary
      (escapeDroppedKeys sampleSnapshot)).isSome = true ∧
    (@workflowGraphStructuralParse Nat sampleNumbers sampleLibrary
      (escapeDroppedKeys sampleSnapshot)).all (fun graph =>
        memberTotal (restoreDroppedKeys graph) != memberTotal sampleSnapshot) = true := by
  decide +kernel

/-- The own `__proto__` of the connections is lost. -/
theorem connection_key_lost :
    ¬ forall (Number : Type) [GraphNumber Number] (library : SchemaLibrary)
      (snapshot graph : GraphValue Number), snapshot.Ordered ->
        workflowGraphStructuralParse library (escapeDroppedKeys snapshot) = some graph ->
          Same (restoreDroppedKeys graph) snapshot := by
  intro hall
  rcases Option.isSome_iff_exists.mp sampleSnapshot_parses.left with ⟨graph, hgraph⟩
  have hsame := @hall Nat sampleNumbers sampleLibrary sampleSnapshot graph sampleSnapshot_ordered
    hgraph
  have htotals := sampleSnapshot_parses.right
  rw [hgraph, Option.all_some, bne_iff_ne] at htotals
  exact htotals hsame.memberTotal_eq

theorem preflight_keeps_keys_sample :
    exists graph, @workflowGraphStructuralParse Nat sampleNumbers sampleLibrary
        (escapeDroppedKeys sampleSnapshot) = some graph ∧
      Same (restoreDroppedKeys graph) (keptGraph sampleSnapshot) := by
  rcases Option.isSome_iff_exists.mp sampleSnapshot_parses.left with ⟨graph, hgraph⟩
  exact ⟨graph, hgraph, @preflight_keeps_keys Nat sampleNumbers sampleLibrary sampleSnapshot graph
    sampleSnapshot_ordered hgraph⟩

end Preflight
end Pertexo
