import Pertexo.Portability.CanonicalText
import Pertexo.Portability.Projection

/-!
# Facts and bindings of a graph

## The slots of a step
-/

namespace Pertexo
namespace Portability

open Library
open Values

theorem refuseWhen_eq_ok_iff {condition : Bool} {code : PortabilityCode} :
    refuseWhen condition code = .ok () ↔ condition = false := by
  cases condition with
  | false => simp [refuseWhen]
  | true => simp [refuseWhen]

section

variable {Number : Type} [GraphNumber Number] {catalog : WorkflowPortabilityCatalog Number}

def policiesOf (catalog : WorkflowPortabilityCatalog Number) (fields : NodeFields Number) :
    List PortableConnectionSlotPolicy :=
  match definitionOf catalog fields with
  | some definition => definition.slots
  | none => []

theorem references_of_reviewNode {definition : CatalogDefinition Number}
    {fields : NodeFields Number} (h : reviewNode definition fields = .ok ()) {slot : ScriptString}
    (hslot : slot ∈ fields.connectionRefs.keys) :
    exists policy, policy ∈ definition.slots ∧ policy.slot = slot := by
  rw [reviewNode] at h
  rcases exists_of_bind_eq_ok h with ⟨_, _, hshape⟩
  rcases exists_of_bind_eq_ok hshape with ⟨_, _, hmappings⟩
  rcases exists_of_bind_eq_ok hmappings with ⟨_, _, hslots⟩
  rw [refuseWhen_eq_ok_iff, List.any_eq_false] at hslots
  have hcontained := hslots slot hslot
  simp only [Bool.not_eq_true', Bool.not_eq_false, List.contains_iff_mem] at hcontained
  rcases List.mem_map.mp hcontained with ⟨policy, hpolicy, heq⟩
  exact ⟨policy, hpolicy, heq⟩

theorem reviewNode_bindFields {definition : CatalogDefinition Number} {fields : NodeFields Number}
    (h : reviewNode definition fields = .ok ()) :
    reviewNode definition (bindFields [] fields) = .ok () := by
  rw [reviewNode] at h ⊢
  rcases exists_of_bind_eq_ok h with ⟨_, hconfig, hshape⟩
  rcases exists_of_bind_eq_ok hshape with ⟨_, hreviewed, hmappings⟩
  rcases exists_of_bind_eq_ok hmappings with ⟨_, hliterals, _⟩
  refine bind_eq_ok_iff.mpr ⟨(), hconfig, bind_eq_ok_iff.mpr ⟨(), hreviewed, ?_⟩⟩
  exact bind_eq_ok_iff.mpr ⟨(), hliterals, rfl⟩

/-!
## The facts of one step
-/

def slotsOf (catalog : WorkflowPortabilityCatalog Number) (fields : NodeFields Number) :
    List PortableConnectionSlot :=
  (policiesOf catalog fields).map (connectionSlotOf fields)

def requiredOf (catalog : WorkflowPortabilityCatalog Number) (fields : NodeFields Number) :
    List (ScriptString × ScriptString) :=
  ((policiesOf catalog fields).filter PortableConnectionSlotPolicy.isRequired).map
    fun policy => (fields.id, policy.slot)

structure AddsNode (catalog : WorkflowPortabilityCatalog Number) (fields : NodeFields Number)
    (held after : PortabilityFacts Number) : Prop where
  references : forall slot, slot ∈ fields.connectionRefs.keys ->
    exists policy, policy ∈ policiesOf catalog fields ∧ policy.slot = slot
  slots : after.slots = held.slots ++ slotsOf catalog fields
  required : after.required = held.required ++ requiredOf catalog fields

theorem addsNode_of_nodeFacts {fields : NodeFields Number} {held after : PortabilityFacts Number}
    (h : nodeFacts catalog held fields = .ok after) : AddsNode catalog fields held after := by
  rw [nodeFacts] at h
  split at h
  · cases h
  · next definition hdefinition =>
    rcases exists_of_bind_eq_ok h with ⟨_, hreview, hafter⟩
    have hpolicies : policiesOf catalog fields = definition.slots := by
      rw [policiesOf, hdefinition]
    cases hafter
    constructor
    · intro slot hslot
      rw [hpolicies]
      exact references_of_reviewNode hreview hslot
    · rw [slotsOf, hpolicies]
    · rw [requiredOf, hpolicies]

theorem nodeFacts_bindFields {fields : NodeFields Number} {held after : PortabilityFacts Number}
    (h : nodeFacts catalog held fields = .ok after) :
    nodeFacts catalog held (bindFields [] fields) = .ok after := by
  rw [nodeFacts] at h
  split at h
  · cases h
  · next definition hdefinition =>
    rcases exists_of_bind_eq_ok h with ⟨_, hreview, hafter⟩
    have hsame : definitionOf catalog (bindFields [] fields) = some definition := hdefinition
    rw [nodeFacts, hsame]
    exact bind_eq_ok_iff.mpr ⟨(), reviewNode_bindFields hreview, hafter⟩

/-!
## The facts of all steps
-/

theorem foldlM_nodeFacts_bindFields {nodes : List (NodeFields Number)}
    {held after : PortabilityFacts Number} (h : nodes.foldlM (nodeFacts catalog) held = .ok after) :
    (nodes.map (bindFields [])).foldlM (nodeFacts catalog) held = .ok after := by
  induction nodes generalizing held with
  | nil => exact h
  | cons fields rest ih =>
      rw [List.foldlM_cons] at h
      rw [List.map_cons, List.foldlM_cons]
      rcases exists_of_bind_eq_ok h with ⟨next, hnext, hrest⟩
      exact bind_eq_ok_iff.mpr ⟨next, nodeFacts_bindFields hnext, ih hrest⟩

structure AddsNodes (catalog : WorkflowPortabilityCatalog Number)
    (nodes : List (NodeFields Number)) (held after : PortabilityFacts Number) : Prop where
  references : forall fields, fields ∈ nodes -> forall slot, slot ∈ fields.connectionRefs.keys ->
    exists policy, policy ∈ policiesOf catalog fields ∧ policy.slot = slot
  slots : after.slots = held.slots ++ nodes.flatMap (slotsOf catalog)
  required : after.required = held.required ++ nodes.flatMap (requiredOf catalog)

theorem addsNodes_of_foldlM {nodes : List (NodeFields Number)}
    {held after : PortabilityFacts Number} (h : nodes.foldlM (nodeFacts catalog) held = .ok after) :
    AddsNodes catalog nodes held after := by
  induction nodes generalizing held with
  | nil =>
      rw [List.foldlM_nil, pure_eq_ok_iff] at h
      subst h
      constructor
      · intro fields hfields
        cases hfields
      · simp
      · simp
  | cons fields rest ih =>
      rw [List.foldlM_cons] at h
      rcases exists_of_bind_eq_ok h with ⟨next, hnext, hrest⟩
      have hfirst := addsNode_of_nodeFacts hnext
      have hlater := ih hrest
      constructor
      · intro other hother
        cases List.mem_cons.mp hother with
        | inl heq => rw [heq]; exact hfirst.references
        | inr hmem => exact hlater.references other hmem
      · rw [hlater.slots, hfirst.slots, List.flatMap_cons, List.append_assoc]
      · rw [hlater.required, hfirst.required, List.flatMap_cons, List.append_assoc]

omit [GraphNumber Number] in
theorem portableNodes_eq_ok_iff {graph : WorkflowGraph Number} {nodes : List (NodeFields Number)} :
    portableNodes graph = .ok nodes ↔
      ((nodesWithin graph.nodes).map NodeFields.id).Nodup ∧ nodes = nodesWithin graph.nodes := by
  rw [portableNodes]
  split
  · next hnodup => simp [hnodup, eq_comm]
  · next hdup => simp [hdup]

omit [GraphNumber Number] in
theorem nodesWithin_replaceConnections (graph : WorkflowGraph Number)
    (bindings : ConnectionBindings) :
    nodesWithin (replaceConnections graph bindings).nodes =
      (nodesWithin graph.nodes).map (bindFields bindings) :=
  nodesWithin_mapNodes (bindFields bindings) graph.nodes

omit [GraphNumber Number] in
theorem portableNodes_replaceConnections {graph : WorkflowGraph Number}
    {nodes : List (NodeFields Number)} (h : portableNodes graph = .ok nodes)
    (bindings : ConnectionBindings) :
    portableNodes (replaceConnections graph bindings) = .ok (nodes.map (bindFields bindings)) := by
  rw [portableNodes_eq_ok_iff] at h ⊢
  rw [nodesWithin_replaceConnections, List.map_map, h.right]
  exact ⟨h.left, rfl⟩

theorem facts_replaceConnections {graph : WorkflowGraph Number}
    {selected : PortabilityFacts Number} (h : facts graph catalog = .ok selected) :
    facts (replaceConnections graph []) catalog = .ok selected := by
  rw [facts] at h ⊢
  rcases exists_of_bind_eq_ok h with ⟨nodes, hnodes, hfold⟩
  rcases exists_of_bind_eq_ok hfold with ⟨held, hheld, hselected⟩
  refine bind_eq_ok_iff.mpr ⟨_, portableNodes_replaceConnections hnodes [], ?_⟩
  exact bind_eq_ok_iff.mpr ⟨held, foldlM_nodeFacts_bindFields hheld, hselected⟩

structure FactsOf (catalog : WorkflowPortabilityCatalog Number) (graph : WorkflowGraph Number)
    (selected : PortabilityFacts Number) : Prop where
  nodup : ((nodesWithin graph.nodes).map NodeFields.id).Nodup
  references : forall fields, fields ∈ nodesWithin graph.nodes ->
    forall slot, slot ∈ fields.connectionRefs.keys ->
      exists policy, policy ∈ policiesOf catalog fields ∧ policy.slot = slot
  slots : forall slot, slot ∈ selected.slots ↔
    exists fields, fields ∈ nodesWithin graph.nodes ∧ slot ∈ slotsOf catalog fields
  required : selected.required = (nodesWithin graph.nodes).flatMap (requiredOf catalog)

theorem factsOf_of_facts {graph : WorkflowGraph Number} {selected : PortabilityFacts Number}
    (h : facts graph catalog = .ok selected) : FactsOf catalog graph selected := by
  rw [facts] at h
  rcases exists_of_bind_eq_ok h with ⟨nodes, hnodes, hfold⟩
  rcases exists_of_bind_eq_ok hfold with ⟨held, hheld, hlimit⟩
  rcases exists_of_bind_eq_ok hlimit with ⟨_, _, hselected⟩
  rcases portableNodes_eq_ok_iff.mp hnodes with ⟨hnodup, heq⟩
  have hadds := addsNodes_of_foldlM hheld
  rw [heq] at hadds
  cases hselected
  constructor
  · exact hnodup
  · exact hadds.references
  · intro slot
    rw [mem_sortWith, hadds.slots, List.nil_append, List.mem_flatMap]
  · exact hadds.required

end

/-!
## The bindings that a graph lists
-/

def PortableConnectionBinding.token (binding : PortableConnectionBinding) :
    ScriptString × ScriptString :=
  (binding.nodeId, binding.slot)

def PortableConnectionBinding.reference (binding : PortableConnectionBinding) :
    ScriptString × ScriptString :=
  (binding.slot, binding.connectionId)

section

variable {Number : Type}

def nodeBindings (fields : NodeFields Number) : List PortableConnectionBinding :=
  fields.connectionRefs.members.map fun reference =>
    { nodeId := fields.id, slot := reference.fst, connectionId := reference.snd }

def connectionBindings (graph : WorkflowGraph Number) : List PortableConnectionBinding :=
  (nodesWithin graph.nodes).flatMap nodeBindings

theorem TextRecord.nodup_keys (record : TextRecord) : record.keys.Nodup := by
  rw [TextRecord.keys, List.Nodup, List.pairwise_map]
  exact record.ordered.imp fun hbefore => ne_of_comesBefore hbefore

theorem map_reference_nodeBindings (fields : NodeFields Number) :
    (nodeBindings fields).map PortableConnectionBinding.reference =
      fields.connectionRefs.members := by
  rw [nodeBindings, List.map_map]
  exact List.map_id _

theorem nodeId_of_mem_nodeBindings {fields : NodeFields Number}
    {binding : PortableConnectionBinding} (h : binding ∈ nodeBindings fields) :
    binding.nodeId = fields.id := by
  rcases List.mem_map.mp h with ⟨reference, _, rfl⟩
  rfl

theorem mem_tokens_nodeBindings_iff {fields : NodeFields Number} {slot : ScriptString} :
    (fields.id, slot) ∈ (nodeBindings fields).map PortableConnectionBinding.token ↔
      slot ∈ fields.connectionRefs.keys := by
  rw [nodeBindings, List.map_map, TextRecord.keys]
  simp [PortableConnectionBinding.token]

theorem filter_nodeBindings_self (fields : NodeFields Number) :
    (nodeBindings fields).filter (fun binding => binding.nodeId == fields.id) =
      nodeBindings fields := by
  rw [List.filter_eq_self]
  intro binding hbinding
  exact beq_iff_eq.mpr (nodeId_of_mem_nodeBindings hbinding)

theorem filter_nodeBindings_other {fields : NodeFields Number} {id : ScriptString}
    (h : fields.id ≠ id) :
    (nodeBindings fields).filter (fun binding => binding.nodeId == id) = [] := by
  rw [List.filter_eq_nil_iff]
  intro binding hbinding hid
  apply h
  rw [← nodeId_of_mem_nodeBindings hbinding]
  exact beq_iff_eq.mp hid

theorem filter_bindings_eq_nil {nodes : List (NodeFields Number)} {id : ScriptString}
    (h : id ∉ nodes.map NodeFields.id) :
    (nodes.flatMap nodeBindings).filter (fun binding => binding.nodeId == id) = [] := by
  rw [List.filter_eq_nil_iff]
  intro binding hbinding hid
  rcases List.mem_flatMap.mp hbinding with ⟨fields, hfields, hmem⟩
  apply h
  rw [← beq_iff_eq.mp hid, nodeId_of_mem_nodeBindings hmem]
  exact List.mem_map_of_mem hfields

theorem filter_bindings {nodes : List (NodeFields Number)}
    (hnodup : (nodes.map NodeFields.id).Nodup) {fields : NodeFields Number}
    (hfields : fields ∈ nodes) :
    (nodes.flatMap nodeBindings).filter (fun binding => binding.nodeId == fields.id) =
      nodeBindings fields := by
  induction nodes with
  | nil => cases hfields
  | cons first rest ih =>
      rw [List.map_cons, List.nodup_cons] at hnodup
      rw [List.flatMap_cons, List.filter_append]
      cases List.mem_cons.mp hfields with
      | inl heq =>
          rw [heq, filter_nodeBindings_self, filter_bindings_eq_nil hnodup.left, List.append_nil]
      | inr hmem =>
          have hother : first.id ≠ fields.id := by
            intro heq
            apply hnodup.left
            rw [heq]
            exact List.mem_map_of_mem hmem
          rw [filter_nodeBindings_other hother, List.nil_append, ih hnodup.right hmem]

theorem nodup_tokens {nodes : List (NodeFields Number)}
    (hnodup : (nodes.map NodeFields.id).Nodup) :
    ((nodes.flatMap nodeBindings).map PortableConnectionBinding.token).Nodup := by
  induction nodes with
  | nil => exact List.nodup_nil
  | cons first rest ih =>
      rw [List.map_cons, List.nodup_cons] at hnodup
      rw [List.flatMap_cons, List.map_append, List.nodup_append]
      refine ⟨?_, ih hnodup.right, ?_⟩
      · have hkeys : ((nodeBindings first).map PortableConnectionBinding.token) =
            first.connectionRefs.keys.map fun slot => (first.id, slot) := by
          rw [nodeBindings, TextRecord.keys, List.map_map, List.map_map]
          rfl
        rw [hkeys]
        exact first.connectionRefs.nodup_keys.map fun _ _ h => (Prod.mk.inj h).right
      · intro token htoken other hother heq
        rcases List.mem_map.mp htoken with ⟨binding, hbinding, rfl⟩
        rcases List.mem_map.mp hother with ⟨later, hlater, rfl⟩
        rcases List.mem_flatMap.mp hlater with ⟨fields, hfields, hmem⟩
        apply hnodup.left
        have hid : binding.nodeId = later.nodeId := (Prod.mk.inj heq).left
        rw [← nodeId_of_mem_nodeBindings hbinding, hid, nodeId_of_mem_nodeBindings hmem]
        exact List.mem_map_of_mem hfields

end

/-!
## Defining references

References defined in the order of own keys are added at the end; in any order,
they are the members of the record.
-/

def defineReference (record : TextRecord) (reference : ScriptString × ScriptString) : TextRecord :=
  record.define reference.fst reference.snd

theorem members_foldl_of_ownOrder {references : List (ScriptString × ScriptString)}
    {record : TextRecord} (h : OwnOrder (record.members ++ references)) :
    (references.foldl defineReference record).members = record.members ++ references := by
  induction references generalizing record with
  | nil => exact (List.append_nil _).symm
  | cons reference rest ih =>
      have hfront : OwnOrder (record.members ++ [reference]) := by
        rw [List.append_cons] at h
        exact (List.pairwise_append.mp h).left
      have hnext : (defineReference record reference).members = record.members ++ [reference] :=
        defineProperty_of_ownOrder hfront
      rw [List.foldl_cons, ih (by rw [hnext, ← List.append_cons]; exact h), hnext,
        ← List.append_cons]

theorem perm_defineProperty {key : ScriptString} {value : α} {members : List (ScriptString × α)}
    (h : key ∉ members.map Prod.fst) :
    (defineProperty key value members).Perm ((key, value) :: members) := by
  induction members with
  | nil => exact List.Perm.refl _
  | cons first rest ih =>
      obtain ⟨name, old⟩ := first
      rw [List.map_cons, List.mem_cons, not_or] at h
      have hname : (name == key) = false := beq_eq_false_iff_ne.mpr fun heq => h.left heq.symm
      rw [defineProperty, hname, if_neg Bool.false_ne_true]
      split
      · exact ((ih h.right).cons _).trans (List.Perm.swap _ _ _)
      · exact List.Perm.refl _

theorem perm_members_foldl {references : List (ScriptString × ScriptString)}
    {record : TextRecord} (h : (record.keys ++ references.map Prod.fst).Nodup) :
    (references.foldl defineReference record).members.Perm (record.members ++ references) := by
  induction references generalizing record with
  | nil => rw [List.append_nil]; exact List.Perm.refl _
  | cons reference rest ih =>
      have hnew : reference.fst ∉ record.members.map Prod.fst := by
        intro hmem
        rw [List.nodup_append] at h
        exact h.right.right _ hmem _ (List.mem_cons_self ..) rfl
      have hdefined : (defineReference record reference).members.Perm
          (reference :: record.members) :=
        perm_defineProperty hnew
      have hkeys : ((defineReference record reference).keys ++ rest.map Prod.fst).Nodup := by
        have hperm : ((defineReference record reference).keys ++ rest.map Prod.fst).Perm
            (record.keys ++ (reference :: rest).map Prod.fst) :=
          ((hdefined.map Prod.fst).append_right _).trans List.perm_middle.symm
        exact hperm.nodup_iff.mpr h
      rw [List.foldl_cons]
      exact (ih hkeys).trans ((hdefined.append_right _).trans List.perm_middle.symm)

/-!
## Binding connections
-/

theorem referencesOf_setItems (references : ConnectionBindings) (nodeId id : ScriptString)
    (record : TextRecord) :
    referencesOf (Keyed.setItems Prod.fst (nodeId, record) references) id =
      if nodeId == id then record else referencesOf references id := by
  induction references with
  | nil =>
      rw [Keyed.setItems, referencesOf, List.find?_cons]
      cases hid : nodeId == id with
      | true => simp
      | false => simp [referencesOf]
  | cons first rest ih =>
      rw [Keyed.setItems]
      split
      · next hkey =>
        have hfirst : first.fst = nodeId := hkey
        rw [referencesOf, referencesOf, List.find?_cons, List.find?_cons, hfirst]
        cases hid : nodeId == id with
        | true => simp
        | false => simp
      · next hkey =>
        have hfirst : first.fst ≠ nodeId := hkey
        rw [referencesOf, referencesOf, List.find?_cons, List.find?_cons]
        cases hname : first.fst == id with
        | true =>
            have hdiffers : (nodeId == id) = false := by
              rw [beq_eq_false_iff_ne]
              intro heq
              exact hfirst ((beq_iff_eq.mp hname).trans heq.symm)
            simp [hdiffers]
        | false => exact ih

def bindingsOf (bindings : List PortableConnectionBinding) (id : ScriptString) :
    List (ScriptString × ScriptString) :=
  (bindings.filter fun binding => binding.nodeId == id).map PortableConnectionBinding.reference

theorem bindingsOf_cons (binding : PortableConnectionBinding)
    (rest : List PortableConnectionBinding) (id : ScriptString) :
    bindingsOf (binding :: rest) id =
      if binding.nodeId == id then binding.reference :: bindingsOf rest id
      else bindingsOf rest id := by
  rw [bindingsOf, List.filter_cons]
  split
  · rfl
  · rfl

theorem exists_foldlM_bindConnection {expected : List (ScriptString × ScriptString)}
    {bindings : List PortableConnectionBinding} {held : BoundConnections}
    (hexpected : forall binding, binding ∈ bindings -> binding.token ∈ expected)
    (hnodup : (held.seen ++ bindings.map PortableConnectionBinding.token).Nodup) :
    exists after,
      bindings.foldlM (bindConnection expected) held = .ok after ∧
      after.seen = held.seen ++ bindings.map PortableConnectionBinding.token ∧
      forall id, referencesOf after.references id =
        (bindingsOf bindings id).foldl defineReference (referencesOf held.references id) := by
  induction bindings generalizing held with
  | nil =>
      refine ⟨held, rfl, (List.append_nil _).symm, ?_⟩
      intro id
      rfl
  | cons binding rest ih =>
      have hknown : expected.contains binding.token = true :=
        List.contains_iff_mem.mpr (hexpected binding (List.mem_cons_self ..))
      have hnew : held.seen.contains binding.token = false := by
        rw [← Bool.not_eq_true, List.contains_iff_mem]
        intro hmem
        rw [List.nodup_append] at hnodup
        exact hnodup.right.right _ hmem _ (List.mem_cons_self ..) rfl
      have hstep : exists next, bindConnection expected held binding = .ok next ∧
          next.seen = held.seen ++ [binding.token] ∧
          next.references = Keyed.setItems Prod.fst
            (binding.nodeId,
              defineReference (referencesOf held.references binding.nodeId) binding.reference)
            held.references := by
        rw [bindConnection]
        show exists next, (if !expected.contains binding.token ||
          held.seen.contains binding.token then _ else _) = Except.ok next ∧ _
        rw [hknown, hnew]
        exact ⟨_, rfl, rfl, rfl⟩
      rcases hstep with ⟨next, hnext, hnextSeen, hnextReferences⟩
      rw [List.map_cons, List.append_cons, ← hnextSeen] at hnodup
      rcases ih (fun other hother => hexpected other (List.mem_cons_of_mem _ hother)) hnodup
        with ⟨after, hafter, hseen, hreferences⟩
      refine ⟨after, ?_, ?_, ?_⟩
      · rw [List.foldlM_cons, hnext]
        exact hafter
      · rw [hseen, hnextSeen, List.map_cons, ← List.append_cons]
      · intro id
        rw [hreferences, bindingsOf_cons, hnextReferences, referencesOf_setItems]
        cases hid : binding.nodeId == id with
        | true =>
            rw [beq_iff_eq.mp hid]
            rfl
        | false => rfl

end Portability
end Pertexo
