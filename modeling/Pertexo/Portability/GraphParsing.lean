import Pertexo.Library.Results
import Pertexo.Portability.GraphSchema

/-!
# What parsing a graph does

## Rewrites
-/

namespace Pertexo
namespace Portability

open Library
open Values

section

variable {Number : Type}

theorem mapNodes_eq_map (f : NodeFields Number -> NodeFields Number)
    (nodes : List (WorkflowNode Number)) :
    mapNodes f nodes = nodes.map (WorkflowNode.mapFields f) := by
  induction nodes with
  | nil => rfl
  | cons node rest ih => rw [mapNodes, ih, List.map_cons]

@[simp] theorem fields_mapFields (f : NodeFields Number -> NodeFields Number)
    (node : WorkflowNode Number) : (node.mapFields f).fields = f node.fields := by
  cases node with
  | step fields => rfl
  | structured fields loop body => rfl

mutual

theorem mapFields_mapFields (f g : NodeFields Number -> NodeFields Number)
    (node : WorkflowNode Number) :
    (node.mapFields f).mapFields g = node.mapFields (g ∘ f) := by
  match node with
  | .step fields => rfl
  | .structured fields loop body =>
      rw [WorkflowNode.mapFields, WorkflowNode.mapFields, WorkflowNode.mapFields,
        mapNodes_mapNodes f g body]
      rfl

theorem mapNodes_mapNodes (f g : NodeFields Number -> NodeFields Number)
    (nodes : List (WorkflowNode Number)) :
    mapNodes g (mapNodes f nodes) = mapNodes (g ∘ f) nodes := by
  match nodes with
  | [] => rfl
  | node :: rest =>
      rw [mapNodes, mapNodes, mapNodes, mapFields_mapFields f g node, mapNodes_mapNodes f g rest]

end

mutual

theorem bodyWithin_mapFields (f : NodeFields Number -> NodeFields Number)
    (node : WorkflowNode Number) :
    (node.mapFields f).bodyWithin = node.bodyWithin.map f := by
  match node with
  | .step fields => rfl
  | .structured fields loop body =>
      rw [WorkflowNode.mapFields, WorkflowNode.bodyWithin, WorkflowNode.bodyWithin,
        bodiesWithin_mapNodes f body, mapNodes_eq_map, List.map_append, List.map_map, List.map_map]
      congr 2
      funext node
      exact fields_mapFields f node

theorem bodiesWithin_mapNodes (f : NodeFields Number -> NodeFields Number)
    (nodes : List (WorkflowNode Number)) :
    bodiesWithin (mapNodes f nodes) = (bodiesWithin nodes).map f := by
  match nodes with
  | [] => rfl
  | node :: rest =>
      rw [mapNodes, bodiesWithin, bodiesWithin, bodyWithin_mapFields f node,
        bodiesWithin_mapNodes f rest, List.map_append]

end

theorem nodesWithin_mapNodes (f : NodeFields Number -> NodeFields Number)
    (nodes : List (WorkflowNode Number)) :
    nodesWithin (mapNodes f nodes) = (nodesWithin nodes).map f := by
  rw [nodesWithin, nodesWithin, bodiesWithin_mapNodes, mapNodes_eq_map, List.map_append,
    List.map_map, List.map_map]
  congr 2
  funext node
  exact fields_mapFields f node

mutual

theorem mapFields_congr {f g : NodeFields Number -> NodeFields Number}
    (node : WorkflowNode Number) (hnode : f node.fields = g node.fields)
    (hbody : forall fields, fields ∈ node.bodyWithin -> f fields = g fields) :
    node.mapFields f = node.mapFields g := by
  match node with
  | .step fields =>
      rw [WorkflowNode.mapFields, WorkflowNode.mapFields]
      exact congrArg WorkflowNode.step hnode
  | .structured fields loop body =>
      rw [WorkflowNode.bodyWithin] at hbody
      have hparts := mapNodes_congr body
        (fun node hnode => hbody _ (List.mem_append_left _ (List.mem_map_of_mem hnode)))
        (fun fields hfields => hbody _ (List.mem_append_right _ hfields))
      rw [WorkflowNode.mapFields, WorkflowNode.mapFields, hparts]
      exact congrArg (WorkflowNode.structured · loop _) hnode

theorem mapNodes_congr {f g : NodeFields Number -> NodeFields Number}
    (nodes : List (WorkflowNode Number))
    (hnodes : forall node, node ∈ nodes -> f node.fields = g node.fields)
    (hbodies : forall fields, fields ∈ bodiesWithin nodes -> f fields = g fields) :
    mapNodes f nodes = mapNodes g nodes := by
  match nodes with
  | [] => rfl
  | node :: rest =>
      rw [bodiesWithin] at hbodies
      rw [mapNodes, mapNodes,
        mapFields_congr node (hnodes node (List.mem_cons_self ..))
          (fun fields hfields => hbodies fields (List.mem_append_right _ hfields)),
        mapNodes_congr rest (fun node hnode => hnodes node (List.mem_cons_of_mem _ hnode))
          (fun fields hfields => hbodies fields (List.mem_append_left _ hfields))]

end

mutual

theorem mapFields_id (node : WorkflowNode Number) : node.mapFields id = node := by
  match node with
  | .step fields => rfl
  | .structured fields loop body =>
      rw [WorkflowNode.mapFields, mapNodes_id body]
      rfl

theorem mapNodes_id (nodes : List (WorkflowNode Number)) : mapNodes id nodes = nodes := by
  match nodes with
  | [] => rfl
  | node :: rest => rw [mapNodes, mapFields_id node, mapNodes_id rest]

end

theorem mapNodes_eq_self {f : NodeFields Number -> NodeFields Number}
    {nodes : List (WorkflowNode Number)}
    (h : forall fields, fields ∈ nodesWithin nodes -> f fields = fields) :
    mapNodes f nodes = nodes := by
  have hsame : mapNodes f nodes = mapNodes id nodes := by
    apply mapNodes_congr
    · intro node hnode
      exact h _ (List.mem_append_left _ (List.mem_map_of_mem hnode))
    · intro fields hfields
      exact h _ (List.mem_append_right _ hfields)
  rw [hsame, mapNodes_id]

/-!
## Keys are escaped and restored
-/

theorem restoreKey_escapeKey (key : ScriptString) : restoreKey (escapeKey key) = key := by
  rw [escapeKey]
  split
  · next hproto =>
    rw [restoreKey, if_pos (beq_self_eq_true _), beq_iff_eq.mp hproto]
  · split
    · have hdiffers : (escapedKeyPrefix ++ key == inputMappingProtoKey) = false := by
        rw [beq_eq_false_iff_ne]
        intro heq
        rw [escapedKeyPrefix, inputMappingProtoKey, List.append_assoc] at heq
        have hrest := List.append_cancel_left heq
        have hfirst := congrArg List.head? hrest
        have hescaped : (scriptString "escaped.").head? = some 0x65 := by decide
        rw [List.head?_append, hescaped, Option.some_or] at hfirst
        exact absurd hfirst (by decide)
      have hstarts : escapedKeyPrefix.isPrefixOf (escapedKeyPrefix ++ key) = true :=
        List.isPrefixOf_iff_prefix.mpr (List.prefix_append ..)
      rw [restoreKey, hdiffers, if_neg Bool.false_ne_true, if_pos hstarts, List.drop_left]
    · next hproto hescape =>
      have hdiffers : (key == inputMappingProtoKey) = false := by
        rw [beq_eq_false_iff_ne]
        intro heq
        apply hescape
        rw [heq]
        exact List.isPrefixOf_iff_prefix.mpr (List.prefix_append ..)
      have hstarts : escapedKeyPrefix.isPrefixOf key = false := by
        rw [Bool.eq_false_iff]
        intro hescaped
        apply hescape
        exact List.isPrefixOf_iff_prefix.mpr
          ((List.prefix_append ..).trans (List.isPrefixOf_iff_prefix.mp hescaped))
      rw [restoreKey, hdiffers, if_neg Bool.false_ne_true, hstarts, if_neg Bool.false_ne_true]

theorem escapeKey_ne_protoKey (key : ScriptString) : (escapeKey key == protoKey) = false := by
  rw [beq_eq_false_iff_ne, escapeKey]
  split
  · decide
  · next hproto =>
    split
    · intro heq
      have hfirst := congrArg List.head? heq
      have hescaped : escapedKeyPrefix.head? = some 0 := by decide
      rw [List.head?_append, hescaped, Option.some_or] at hfirst
      exact absurd hfirst (by decide)
    · intro heq
      exact hproto (beq_iff_eq.mpr heq)

mutual

theorem restore_copy_escape (value : GraphValue Number) :
    renameKeys restoreKey (copyValue (renameKeys escapeKey value)) = value := by
  match value with
  | .null => rfl
  | .bool value => rfl
  | .number value => rfl
  | .string text => rfl
  | .array items => rw [renameKeys, copyValue, renameKeys, restore_copy_escape_items items]
  | .object members =>
      rw [renameKeys, copyValue, renameKeys, restore_copy_escape_members members]

theorem restore_copy_escape_items (items : List (GraphValue Number)) :
    renameItemKeys restoreKey (copyItems (renameItemKeys escapeKey items)) = items := by
  match items with
  | [] => rfl
  | item :: rest =>
      rw [renameItemKeys, copyItems, renameItemKeys, restore_copy_escape item,
        restore_copy_escape_items rest]

theorem restore_copy_escape_members (members : GraphMembers Number) :
    renameMemberKeys restoreKey (copyMembers (renameMemberKeys escapeKey members)) = members := by
  match members with
  | [] => rfl
  | (name, value) :: rest =>
      rw [renameMemberKeys, copyMembers, escapeKey_ne_protoKey, if_neg Bool.false_ne_true,
        renameMemberKeys, restoreKey_escapeKey, restore_copy_escape value,
        restore_copy_escape_members rest]

end

theorem restore_copy_escape_source (source : ValueSource Number) :
    renameLiteralSource restoreKey (copySource (renameLiteralSource escapeKey source)) =
      source := by
  cases source with
  | literal value =>
      show ValueSource.literal _ = _
      rw [restore_copy_escape]
  | _ => rfl

/-- The only own keys that parsing loses are those of connection references. -/
def keepReferences (fields : NodeFields Number) : NodeFields Number :=
  { fields with connectionRefs := fields.connectionRefs.filter keepsKey }

theorem restore_copy_escape_mappings (mappings : List (ScriptString × ValueSource Number)) :
    (((mappings.map fun mapping =>
        (escapeKey mapping.fst, renameLiteralSource escapeKey mapping.snd)).filter
          fun mapping => keepsKey mapping.fst).map
        fun mapping => (mapping.fst, copySource mapping.snd)).map
      (fun mapping => (restoreKey mapping.fst, renameLiteralSource restoreKey mapping.snd)) =
      mappings := by
  induction mappings with
  | nil => rfl
  | cons mapping rest ih =>
      have hkept : keepsKey (escapeKey mapping.fst) = true := by
        rw [keepsKey, escapeKey_ne_protoKey]
        rfl
      rw [List.map_cons, List.filter_cons, if_pos hkept, List.map_cons, List.map_cons, ih]
      dsimp only
      rw [restoreKey_escapeKey, restore_copy_escape_source]

theorem restore_copy_escape_fields (fields : NodeFields Number) :
    renameFields restoreKey (copyFields (renameFields escapeKey fields)) =
      keepReferences fields := by
  rw [renameFields, copyFields, renameFields, keepReferences]
  dsimp only
  rw [restore_copy_escape_members, restore_copy_escape_mappings]

theorem restore_copy_escape_graph (graph : WorkflowGraph Number) :
    restoreDroppedInputMappingKeys (copyGraph (escapeDroppedInputMappingKeys graph)) =
      graph.mapFields keepReferences := by
  have hnodes : mapNodes (renameFields restoreKey)
      (mapNodes copyFields (mapNodes (renameFields escapeKey) graph.nodes)) =
      mapNodes keepReferences graph.nodes := by
    rw [mapNodes_mapNodes, mapNodes_mapNodes]
    congr 1
    funext fields
    exact restore_copy_escape_fields fields
  rw [restoreDroppedInputMappingKeys, escapeDroppedInputMappingKeys, renameGraph, renameGraph,
    copyGraph, WorkflowGraph.mapFields, WorkflowGraph.mapFields, WorkflowGraph.mapFields,
    WorkflowGraph.mapFields]
  dsimp only
  rw [hnodes]
  cases hcallable : graph.callable with
  | none => rfl
  | some callable =>
      dsimp only [Option.map_some]
      rw [restore_copy_escape_source]

/-!
## Admission
-/

end

section

variable {Number : Type} [GraphNumber Number] {limits : AdmissionLimits}

mutual

theorem inspectValue_of_finite (value : GraphValue Number) (hfinite : isFiniteValue value = true)
    (path : ScriptString) (depth bytes : Nat) :
    inspectValue limits false value path depth bytes =
      inspectValue limits true value path depth bytes := by
  match value with
  | .null => rfl
  | .bool value => rfl
  | .string text => rfl
  | .number value =>
      have hnumber : isFiniteNumber value = true := hfinite
      rw [inspectValue, inspectValue, hnumber]
      rfl
  | .array items =>
      rw [inspectValue, inspectValue]
      simp only [inspectItems_of_finite items hfinite]
  | .object members =>
      rw [inspectValue, inspectValue]
      simp only [inspectMembers_of_finite members hfinite]

theorem inspectItems_of_finite (items : List (GraphValue Number))
    (hfinite : areFiniteItems items = true) (path : ScriptString) (index depth bytes : Nat) :
    inspectItems limits false items path index depth bytes =
      inspectItems limits true items path index depth bytes := by
  match items with
  | [] => rfl
  | item :: rest =>
      rw [areFiniteItems, Bool.and_eq_true] at hfinite
      rw [inspectItems, inspectItems, inspectValue_of_finite item hfinite.left]
      apply bind_congr
      intro counted
      exact inspectItems_of_finite rest hfinite.right path (index + 1) depth counted

theorem inspectMembers_of_finite (members : GraphMembers Number)
    (hfinite : areFiniteMembers members = true) (path : ScriptString) (depth bytes : Nat) :
    inspectMembers limits false members path depth bytes =
      inspectMembers limits true members path depth bytes := by
  match members with
  | [] => rfl
  | (name, value) :: rest =>
      rw [areFiniteMembers, Bool.and_eq_true] at hfinite
      rw [inspectMembers, inspectMembers, inspectValue_of_finite value hfinite.left]
      apply bind_congr
      intro counted
      exact inspectMembers_of_finite rest hfinite.right path depth counted

end

end

section

variable {Number : Type} [GraphNumber Number] {isUuid : ScriptString -> Bool}

theorem eq_of_parseAdmitted {input graph : WorkflowGraph Number}
    (h : parseAdmitted isUuid input = .ok graph) : graph = input.mapFields keepReferences := by
  rw [parseAdmitted] at h
  split at h
  · rcases exists_of_map_eq_ok h with ⟨copied, hcopied, hgraph⟩
    rw [workflowGraphStructuralSchema] at hcopied
    split at hcopied
    · cases hcopied
      rw [restore_copy_escape_graph] at hgraph
      exact hgraph.symm
    · cases hcopied
  · cases h

theorem eq_of_parseWorkflowGraphDraft {input graph : WorkflowGraph Number}
    (h : parseWorkflowGraphDraft isUuid input = .ok graph) :
    graph = input.mapFields keepReferences := by
  rw [parseWorkflowGraphDraft] at h
  split at h
  · cases h
  · exact eq_of_parseAdmitted h

theorem eq_of_workflowGraphSchema {input graph : WorkflowGraph Number}
    (h : workflowGraphSchema isUuid input = .ok graph) :
    graph = input.mapFields keepReferences := by
  rw [workflowGraphSchema] at h
  split at h
  · cases h
  · exact eq_of_parseAdmitted h

/-- What the graph schema accepts, the draft parser reads alike when its numbers are finite. -/
theorem parseWorkflowGraphDraft_of_schema {input graph : WorkflowGraph Number}
    (hfinite : isFiniteValue input.json = true)
    (h : workflowGraphSchema isUuid input = .ok graph) :
    parseWorkflowGraphDraft isUuid input = .ok graph := by
  have hadmission : forall limits : AdmissionLimits,
      inspectWorkflowGraphAdmission limits false input =
        inspectWorkflowGraphAdmission limits true input := by
    intro limits
    rw [inspectWorkflowGraphAdmission, inspectWorkflowGraphAdmission, inspectAdmission,
      inspectAdmission, inspectJsonDocument, inspectJsonDocument,
      inspectValue_of_finite input.json hfinite]
  rw [workflowGraphSchema] at h
  rw [parseWorkflowGraphDraft, hadmission]
  split at h
  · cases h
  · exact h

end

end Portability
end Pertexo
