import Mathlib.Data.List.Forall2
import Pertexo.Portability.Bindings
import Pertexo.Values.JsonText

/-!
# Export and import are inverse

## Erasing and restoring connections
-/

namespace Pertexo
namespace Portability

open Library
open Values

section

variable {Number : Type}

theorem keepReferences_bindFields_nil :
    keepReferences ∘ bindFields ([] : ConnectionBindings) =
      (bindFields [] : NodeFields Number -> NodeFields Number) := by
  funext fields
  rfl

theorem mapFields_keepReferences_erased (graph : WorkflowGraph Number) :
    (replaceConnections graph []).mapFields keepReferences = replaceConnections graph [] := by
  rw [replaceConnections, WorkflowGraph.mapFields, WorkflowGraph.mapFields]
  dsimp only
  rw [mapNodes_mapNodes, keepReferences_bindFields_nil]

theorem replaceConnections_replaceConnections (graph : WorkflowGraph Number)
    (before after : ConnectionBindings) :
    replaceConnections (replaceConnections graph before) after =
      replaceConnections graph after := by
  rw [replaceConnections, replaceConnections, replaceConnections, WorkflowGraph.mapFields,
    WorkflowGraph.mapFields, WorkflowGraph.mapFields]
  dsimp only
  rw [mapNodes_mapNodes]
  rfl

theorem replaceConnections_eq_self {graph : WorkflowGraph Number} {bindings : ConnectionBindings}
    (h : forall fields, fields ∈ nodesWithin graph.nodes ->
      referencesOf bindings fields.id = fields.connectionRefs) :
    replaceConnections graph bindings = graph := by
  have hnodes : mapNodes (bindFields bindings) graph.nodes = graph.nodes := by
    apply mapNodes_eq_self
    intro fields hfields
    rw [bindFields, h fields hfields]
  rw [replaceConnections, WorkflowGraph.mapFields, hnodes]

/-- Two graphs are the same but for the order of the keys of connection references. -/
structure SameConnections (left right : WorkflowGraph Number) : Prop where
  erased : replaceConnections left [] = replaceConnections right []
  references : List.Forall₂
    (fun leftFields rightFields => leftFields.id = rightFields.id ∧
      leftFields.connectionRefs.members.Perm rightFields.connectionRefs.members)
    (nodesWithin left.nodes) (nodesWithin right.nodes)

theorem sameConnections_replaceConnections {graph : WorkflowGraph Number}
    {bindings : ConnectionBindings}
    (h : forall fields, fields ∈ nodesWithin graph.nodes ->
      (referencesOf bindings fields.id).members.Perm fields.connectionRefs.members) :
    SameConnections (replaceConnections graph bindings) graph := by
  constructor
  · exact replaceConnections_replaceConnections graph bindings []
  · rw [nodesWithin_replaceConnections, List.forall₂_map_left_iff, List.forall₂_same]
    intro fields hfields
    exact ⟨rfl, h fields hfields⟩

/-!
## References from bindings
-/

theorem bindingsOf_connectionBindings {graph : WorkflowGraph Number}
    (hnodup : ((nodesWithin graph.nodes).map NodeFields.id).Nodup) {fields : NodeFields Number}
    (hfields : fields ∈ nodesWithin graph.nodes) :
    bindingsOf (connectionBindings graph) fields.id = fields.connectionRefs.members := by
  rw [bindingsOf, connectionBindings, filter_bindings hnodup hfields, map_reference_nodeBindings]

theorem foldl_bindingsOf_connectionBindings {graph : WorkflowGraph Number}
    (hnodup : ((nodesWithin graph.nodes).map NodeFields.id).Nodup) {fields : NodeFields Number}
    (hfields : fields ∈ nodesWithin graph.nodes) :
    (bindingsOf (connectionBindings graph) fields.id).foldl defineReference .empty =
      fields.connectionRefs := by
  apply TextRecord.eq_of_members
  rw [bindingsOf_connectionBindings hnodup hfields]
  exact members_foldl_of_ownOrder fields.connectionRefs.ordered

theorem perm_foldl_bindingsOf {graph : WorkflowGraph Number}
    (hnodup : ((nodesWithin graph.nodes).map NodeFields.id).Nodup) {fields : NodeFields Number}
    (hfields : fields ∈ nodesWithin graph.nodes) {bindings : List PortableConnectionBinding}
    (hperm : bindings.Perm (connectionBindings graph)) :
    ((bindingsOf bindings fields.id).foldl defineReference .empty).members.Perm
      fields.connectionRefs.members := by
  have hreferences : (bindingsOf bindings fields.id).Perm fields.connectionRefs.members := by
    rw [← bindingsOf_connectionBindings hnodup hfields]
    exact (hperm.filter _).map _
  have hkeys : (TextRecord.empty.keys ++ (bindingsOf bindings fields.id).map Prod.fst).Nodup :=
    (hreferences.map Prod.fst).nodup_iff.mpr fields.connectionRefs.nodup_keys
  exact (perm_members_foldl hkeys).trans hreferences

end

/-!
## Schemas on projected manifests
-/

section

variable {Number : Type} [GraphNumber Number] {isUuid : ScriptString -> Bool}
variable {catalog : WorkflowPortabilityCatalog Number}

theorem eq_ok_of_mapError {ε δ : Type} {x : Except ε β} {f : ε -> δ} {b : β}
    (h : x.mapError f = .ok b) : x = .ok b := by
  cases x with
  | error e => cases h
  | ok a =>
      cases h
      rfl

structure AcceptsManifest (isUuid : ScriptString -> Bool)
    (input manifest : WorkflowPortableManifest Number) : Prop where
  snapshot : portableSnapshot input.json = .ok input.json
  graph : workflowGraphSchema isUuid input.graph = .ok manifest.graph
  definitions : input.definitions.all DefinitionRequirement.isValid = true
  declared : manifest = { input with graph := manifest.graph }

theorem acceptsManifest_of_schema {input manifest : WorkflowPortableManifest Number}
    (h : workflowPortableManifestSchema isUuid input = .ok manifest) :
    AcceptsManifest isUuid input manifest := by
  rw [workflowPortableManifestSchema] at h
  rcases exists_of_bind_eq_ok h with ⟨snapshot, hsnapshot, hparts⟩
  rcases exists_of_bind_eq_ok hparts with ⟨graph, hgraph, hchecks⟩
  split at hchecks
  · next hvalid =>
    simp only [Bool.and_eq_true] at hvalid
    cases hchecks
    constructor
    · rw [eq_of_portableSnapshot hsnapshot] at hsnapshot
      exact hsnapshot
    · exact eq_ok_of_mapError hgraph
    · exact hvalid.left.left.left
    · rfl
  · cases hchecks

theorem AcceptsManifest.definitions_eq {input manifest : WorkflowPortableManifest Number}
    (h : AcceptsManifest isUuid input manifest) : manifest.definitions = input.definitions := by
  rw [h.declared]

theorem AcceptsManifest.connectionSlots_eq {input manifest : WorkflowPortableManifest Number}
    (h : AcceptsManifest isUuid input manifest) :
    manifest.connectionSlots = input.connectionSlots := by
  rw [h.declared]

theorem AcceptsManifest.requirementsSnapshot {input manifest : WorkflowPortableManifest Number}
    (h : AcceptsManifest isUuid input manifest) :
    portableSnapshot (requirementsJson input.definitions) =
      .ok (requirementsJson input.definitions) := by
  have hmember : member "requirements" (requirementsJson input.definitions) ∈
      [member "format" (textJson "pertexo.workflow"), member "graph" input.graph.json,
        member "requirements" (requirementsJson input.definitions),
        member "connectionSlots" (connectionSlotsJson input.connectionSlots)] := by
    simp
  exact portableSnapshot_of_mem h.snapshot hmember

theorem AcceptsManifest.slotsSnapshot {input manifest : WorkflowPortableManifest Number}
    (h : AcceptsManifest isUuid input manifest) :
    portableSnapshot (connectionSlotsJson input.connectionSlots : GraphValue Number) =
      .ok (connectionSlotsJson input.connectionSlots) := by
  have hmember : member "connectionSlots" (connectionSlotsJson input.connectionSlots) ∈
      [member "format" (textJson "pertexo.workflow"), member "graph" input.graph.json,
        member "requirements" (requirementsJson input.definitions),
        member "connectionSlots" (connectionSlotsJson input.connectionSlots)] := by
    simp
  exact portableSnapshot_of_mem h.snapshot hmember

theorem AcceptsManifest.finiteGraph {input manifest : WorkflowPortableManifest Number}
    (h : AcceptsManifest isUuid input manifest) : isFiniteValue input.graph.json = true := by
  have hmember : member "graph" input.graph.json ∈
      [member "format" (textJson "pertexo.workflow"), member "graph" input.graph.json,
        member "requirements" (requirementsJson input.definitions),
        member "connectionSlots" (connectionSlotsJson input.connectionSlots)] := by
    simp
  exact isFiniteValue_of_portableSnapshot (portableSnapshot_of_mem h.snapshot hmember)

theorem requireCanonical_self {value : GraphValue Number} {code : PortabilityCode}
    (h : portableSnapshot value = .ok value) : requireCanonical value value code = .ok () := by
  rw [requireCanonical, canonicalWorkflowPortableJson, h]
  show refuseWhen (sortedJson value != sortedJson value) code = .ok ()
  rw [refuseWhen_eq_ok_iff, bne_self_eq_false]

theorem sortedJson_eq_of_requireCanonical {declared derived : GraphValue Number}
    {code : PortabilityCode} (h : requireCanonical declared derived code = .ok ()) :
    sortedJson declared = sortedJson derived := by
  rw [requireCanonical] at h
  rcases exists_of_bind_eq_ok h with ⟨left, hleft, hright⟩
  rcases exists_of_bind_eq_ok hright with ⟨right, hsorted, hsame⟩
  rcases exists_of_map_eq_ok hleft with ⟨declared', hdeclared, rfl⟩
  rcases exists_of_map_eq_ok hsorted with ⟨derived', hderived, rfl⟩
  rw [eq_of_portableSnapshot hdeclared, eq_of_portableSnapshot hderived,
    refuseWhen_eq_ok_iff, bne_eq_false_iff_eq] at hsame
  exact hsame

/-!
## Projection
-/

structure Projected (isUuid : ScriptString -> Bool) (catalog : WorkflowPortabilityCatalog Number)
    (input graph : WorkflowGraph Number) (selected : PortabilityFacts Number)
    (manifest : WorkflowPortableManifest Number) : Prop where
  parsed : parseWorkflowGraphDraft isUuid input = .ok graph
  found : facts graph catalog = .ok selected
  shape : manifest =
    { graph := replaceConnections graph []
      definitions := selected.definitions
      connectionSlots := selected.slots }
  stable : workflowPortableManifestSchema isUuid manifest = .ok manifest

/-- The manifest schema gives a manifest without connection references back. -/
theorem exists_projected {input : WorkflowGraph Number} {manifest : WorkflowPortableManifest Number}
    (h : projectWorkflowPortableManifest isUuid input catalog = .ok manifest) :
    exists graph selected, Projected isUuid catalog input graph selected manifest := by
  rw [projectWorkflowPortableManifest] at h
  rcases exists_of_bind_eq_ok h with ⟨graph, hgraph, hselected⟩
  rcases exists_of_bind_eq_ok hselected with ⟨selected, hfacts, hschema⟩
  have haccepts := acceptsManifest_of_schema hschema
  have hsame : manifest.graph = replaceConnections graph [] := by
    rw [eq_of_workflowGraphSchema haccepts.graph]
    exact mapFields_keepReferences_erased graph
  have hmanifest : manifest =
      { graph := replaceConnections graph []
        definitions := selected.definitions
        connectionSlots := selected.slots } := by
    rw [haccepts.declared, hsame]
  refine ⟨graph, selected, eq_ok_of_mapError hgraph, hfacts, hmanifest, ?_⟩
  rw [← hmanifest] at hschema
  exact hschema

theorem Projected.parsedGraph {input graph : WorkflowGraph Number}
    {selected : PortabilityFacts Number} {manifest : WorkflowPortableManifest Number}
    (h : Projected isUuid catalog input graph selected manifest) :
    parseWorkflowGraphDraft isUuid manifest.graph = .ok manifest.graph := by
  have haccepts := acceptsManifest_of_schema h.stable
  exact parseWorkflowGraphDraft_of_schema haccepts.finiteGraph haccepts.graph

/-!
## Inspection
-/

structure Inspected (isUuid : ScriptString -> Bool) (catalog : WorkflowPortabilityCatalog Number)
    (rawManifest : WorkflowPortableManifest Number) (graph : WorkflowGraph Number)
    (selected : PortabilityFacts Number) : Prop where
  parsed : graph = rawManifest.graph.mapFields keepReferences
  unbound : forall fields, fields ∈ nodesWithin graph.nodes -> fields.connectionRefs.keys = []
  found : facts graph catalog = .ok selected
  definitions : sortedJson (requirementsJson rawManifest.definitions) =
    sortedJson (requirementsJson selected.definitions)
  connectionSlots : sortedJson (connectionSlotsJson rawManifest.connectionSlots :
      GraphValue Number) = sortedJson (connectionSlotsJson selected.slots : GraphValue Number)
  valid : rawManifest.definitions.all DefinitionRequirement.isValid = true

omit [GraphNumber Number] in
theorem mapFields_keepReferences_twice (graph : WorkflowGraph Number) :
    (graph.mapFields keepReferences).mapFields keepReferences =
      graph.mapFields keepReferences := by
  have htwice : keepReferences ∘ keepReferences =
      (keepReferences : NodeFields Number -> NodeFields Number) := by
    funext fields
    have hrecord : (fields.connectionRefs.filter keepsKey).filter keepsKey =
        fields.connectionRefs.filter keepsKey := by
      apply TextRecord.eq_of_members
      show List.filter _ (List.filter _ _) = List.filter _ _
      rw [List.filter_filter]
      congr 1
      funext entry
      exact Bool.and_self _
    rw [Function.comp_apply, keepReferences, keepReferences]
    dsimp only
    rw [hrecord]
  rw [WorkflowGraph.mapFields, WorkflowGraph.mapFields]
  dsimp only
  rw [mapNodes_mapNodes, htwice]

theorem exists_inspected {rawManifest : WorkflowPortableManifest Number}
    {bindings : List PortableConnectionBinding} {inspected : InspectedManifest Number}
    (h : inspectWorkflowPortableManifest isUuid rawManifest bindings catalog = .ok inspected) :
    exists graph selected, Inspected isUuid catalog rawManifest graph selected := by
  rw [inspectWorkflowPortableManifest] at h
  rcases exists_of_bind_eq_ok h with ⟨manifest, hmanifest, hgraph⟩
  rcases exists_of_bind_eq_ok hgraph with ⟨graph, hparsed, hnodes⟩
  rcases exists_of_bind_eq_ok hnodes with ⟨nodes, hportable, hunbound⟩
  rcases exists_of_bind_eq_ok hunbound with ⟨_, hrefuse, hselected⟩
  rcases exists_of_bind_eq_ok hselected with ⟨selected, hfacts, hrequirements⟩
  rcases exists_of_bind_eq_ok hrequirements with ⟨_, hdefinitions, hslots⟩
  rcases exists_of_bind_eq_ok hslots with ⟨_, hconnectionSlots, _⟩
  have haccepts := acceptsManifest_of_schema hmanifest
  have hgraphEq : graph = rawManifest.graph.mapFields keepReferences := by
    rw [eq_of_parseWorkflowGraphDraft (eq_ok_of_mapError hparsed),
      eq_of_workflowGraphSchema haccepts.graph, mapFields_keepReferences_twice]
  refine ⟨graph, selected, hgraphEq, ?_, hfacts, ?_, ?_, haccepts.definitions⟩
  · intro fields hfields
    rw [(portableNodes_eq_ok_iff.mp hportable).right, refuseWhen_eq_ok_iff,
      List.any_eq_false] at hrefuse
    simpa using hrefuse fields hfields
  · rw [← haccepts.definitions_eq]
    exact sortedJson_eq_of_requireCanonical hdefinitions
  · rw [← haccepts.connectionSlots_eq]
    exact sortedJson_eq_of_requireCanonical hconnectionSlots

/-!
## Bindings of a projected manifest
-/

theorem Projected.inspected {input graph : WorkflowGraph Number}
    {selected : PortabilityFacts Number} {manifest : WorkflowPortableManifest Number}
    (h : Projected isUuid catalog input graph selected manifest)
    {bindings : List PortableConnectionBinding}
    (hperm : bindings.Perm (connectionBindings graph)) :
    exists bound : BoundConnections,
      inspectWorkflowPortableManifest isUuid manifest bindings catalog = .ok
        { graph := replaceConnections graph bound.references
          issues :=
            if selected.required.any fun token => !bound.seen.contains token then
              [bindingRequiredIssue]
            else [] } ∧
      bound.seen = bindings.map PortableConnectionBinding.token ∧
      forall id, referencesOf bound.references id =
        (bindingsOf bindings id).foldl defineReference .empty := by
  have hfactsOf := factsOf_of_facts h.found
  have haccepts := acceptsManifest_of_schema h.stable
  have hmanifestGraph : manifest.graph = replaceConnections graph [] := by rw [h.shape]
  have hdefinitions : manifest.definitions = selected.definitions := by rw [h.shape]
  have hslots : manifest.connectionSlots = selected.slots := by rw [h.shape]
  have hnodes : portableNodes graph = .ok (nodesWithin graph.nodes) :=
    portableNodes_eq_ok_iff.mpr ⟨hfactsOf.nodup, rfl⟩
  have herased := portableNodes_replaceConnections hnodes []
  have hunbound : refuseWhen (((nodesWithin graph.nodes).map (bindFields [])).any
      fun fields => !fields.connectionRefs.keys.isEmpty) .sourceConnectionReference = .ok () := by
    rw [refuseWhen_eq_ok_iff, List.any_eq_false]
    intro fields hfields
    rcases List.mem_map.mp hfields with ⟨original, _, rfl⟩
    exact Bool.false_ne_true
  have hexpected : forall binding, binding ∈ bindings ->
      binding.token ∈ selected.slots.map fun slot => (slot.nodeId, slot.slot) := by
    intro binding hbinding
    rcases List.mem_flatMap.mp (hperm.mem_iff.mp hbinding) with ⟨fields, hfields, hmem⟩
    rcases List.mem_map.mp hmem with ⟨reference, hreference, rfl⟩
    rcases hfactsOf.references fields hfields reference.fst (List.mem_map_of_mem hreference)
      with ⟨policy, hpolicy, hslot⟩
    apply List.mem_map.mpr
    refine ⟨connectionSlotOf fields policy, ?_, ?_⟩
    · exact (hfactsOf.slots _).mpr ⟨fields, hfields, List.mem_map_of_mem hpolicy⟩
    · show (fields.id, policy.slot) = (fields.id, reference.fst)
      rw [hslot]
  have htokens : (([] : List (ScriptString × ScriptString)) ++
      bindings.map PortableConnectionBinding.token).Nodup :=
    (hperm.map _).nodup_iff.mpr (nodup_tokens hfactsOf.nodup)
  have hstart : (({ seen := [], references := [] } : BoundConnections).seen ++
      bindings.map PortableConnectionBinding.token).Nodup := htokens
  rcases exists_foldlM_bindConnection hexpected hstart with ⟨bound, hbound, hseen, hreferences⟩
  refine ⟨bound, ?_, hseen, hreferences⟩
  rw [inspectWorkflowPortableManifest]
  refine bind_eq_ok_iff.mpr ⟨manifest, h.stable, ?_⟩
  rw [h.parsedGraph, hmanifestGraph]
  refine bind_eq_ok_iff.mpr ⟨_, rfl, bind_eq_ok_iff.mpr ⟨_, herased, ?_⟩⟩
  refine bind_eq_ok_iff.mpr ⟨(), hunbound, ?_⟩
  refine bind_eq_ok_iff.mpr ⟨selected, facts_replaceConnections h.found, ?_⟩
  rw [← hdefinitions, ← hslots]
  refine bind_eq_ok_iff.mpr ⟨(), requireCanonical_self haccepts.requirementsSnapshot, ?_⟩
  refine bind_eq_ok_iff.mpr ⟨(), requireCanonical_self haccepts.slotsSnapshot, ?_⟩
  rw [hslots]
  refine bind_eq_ok_iff.mpr ⟨bound, hbound, ?_⟩
  rw [replaceConnections_replaceConnections]

/-- Some slot that the catalog does not mark as optional has no connection. -/
def MissesConnection (catalog : WorkflowPortabilityCatalog Number) (graph : WorkflowGraph Number) :
    Prop :=
  exists fields, fields ∈ nodesWithin graph.nodes ∧
    exists policy, policy ∈ policiesOf catalog fields ∧ policy.isRequired = true ∧
      policy.slot ∉ fields.connectionRefs.keys

omit [GraphNumber Number] in
theorem eq_of_mem_of_id {nodes : List (NodeFields Number)}
    (hnodup : (nodes.map NodeFields.id).Nodup) {left right : NodeFields Number}
    (hleft : left ∈ nodes) (hright : right ∈ nodes) (h : left.id = right.id) : left = right :=
  List.inj_on_of_nodup_map hnodup hleft hright h

omit [GraphNumber Number] in
theorem mem_tokens_iff {graph : WorkflowGraph Number}
    (hnodup : ((nodesWithin graph.nodes).map NodeFields.id).Nodup) {fields : NodeFields Number}
    (hfields : fields ∈ nodesWithin graph.nodes) {slot : ScriptString} :
    (fields.id, slot) ∈ (connectionBindings graph).map PortableConnectionBinding.token ↔
      slot ∈ fields.connectionRefs.keys := by
  constructor
  · intro h
    rcases List.mem_map.mp h with ⟨binding, hbinding, htoken⟩
    rcases List.mem_flatMap.mp hbinding with ⟨other, hother, hmem⟩
    have hid : other.id = fields.id := by
      rw [← nodeId_of_mem_nodeBindings hmem]
      exact (Prod.mk.inj htoken).left
    rw [eq_of_mem_of_id hnodup hother hfields hid] at hmem
    rw [← mem_tokens_nodeBindings_iff, ← htoken]
    exact List.mem_map_of_mem hmem
  · intro h
    rcases List.mem_map.mp (mem_tokens_nodeBindings_iff.mpr h) with ⟨binding, hbinding, htoken⟩
    exact List.mem_map.mpr ⟨binding, List.mem_flatMap.mpr ⟨fields, hfields, hbinding⟩, htoken⟩

theorem any_required_iff {graph : WorkflowGraph Number} {selected : PortabilityFacts Number}
    (h : FactsOf catalog graph selected) {bindings : List PortableConnectionBinding}
    (hperm : bindings.Perm (connectionBindings graph)) :
    (selected.required.any fun token =>
        !(bindings.map PortableConnectionBinding.token).contains token) = true ↔
      MissesConnection catalog graph := by
  have htokens : forall token,
      ((bindings.map PortableConnectionBinding.token).contains token = false ↔
        token ∉ (connectionBindings graph).map PortableConnectionBinding.token) := by
    intro token
    rw [← Bool.not_eq_true, List.contains_iff_mem, (hperm.map _).mem_iff]
  rw [List.any_eq_true, h.required]
  constructor
  · rintro ⟨token, htoken, hunseen⟩
    rcases List.mem_flatMap.mp htoken with ⟨fields, hfields, hrequired⟩
    rcases List.mem_map.mp hrequired with ⟨policy, hpolicy, rfl⟩
    rcases List.mem_filter.mp hpolicy with ⟨hmem, hisRequired⟩
    rw [Bool.not_eq_true', htokens, mem_tokens_iff h.nodup hfields] at hunseen
    exact ⟨fields, hfields, policy, hmem, hisRequired, hunseen⟩
  · rintro ⟨fields, hfields, policy, hpolicy, hisRequired, hmissing⟩
    refine ⟨(fields.id, policy.slot), ?_, ?_⟩
    · apply List.mem_flatMap.mpr
      refine ⟨fields, hfields, List.mem_map.mpr ⟨policy, ?_, rfl⟩⟩
      exact List.mem_filter.mpr ⟨hpolicy, hisRequired⟩
    · rw [Bool.not_eq_true', htokens, mem_tokens_iff h.nodup hfields]
      exact hmissing

/-!
## Altered manifests
-/

theorem unaltered_of_inspected {rawManifest manifest : WorkflowPortableManifest Number}
    {input graph : WorkflowGraph Number} {selected : PortabilityFacts Number}
    (h : Projected isUuid catalog input graph selected manifest)
    (hgraph : rawManifest.graph = manifest.graph)
    {bindings : List PortableConnectionBinding} {inspected : InspectedManifest Number}
    (hinspected :
      inspectWorkflowPortableManifest isUuid rawManifest bindings catalog = .ok inspected) :
    rawManifest = manifest := by
  rcases exists_inspected hinspected with ⟨parsed, found, hfound⟩
  have hmanifestGraph : manifest.graph = replaceConnections graph [] := by rw [h.shape]
  have hparsed : parsed = replaceConnections graph [] := by
    rw [hfound.parsed, hgraph, hmanifestGraph, mapFields_keepReferences_erased]
  have hsame : found = selected := by
    have hfacts := hfound.found
    rw [hparsed, facts_replaceConnections h.found] at hfacts
    exact (Except.ok.inj hfacts).symm
  have hvalid : selected.definitions.all DefinitionRequirement.isValid = true := by
    have haccepts := (acceptsManifest_of_schema h.stable).definitions
    rw [h.shape] at haccepts
    exact haccepts
  have hdefinitions : rawManifest.definitions = selected.definitions :=
    requirements_eq_of_sortedJson hfound.valid hvalid (hsame ▸ hfound.definitions)
  have hslots : rawManifest.connectionSlots = selected.slots :=
    connectionSlots_eq_of_sortedJson (hsame ▸ hfound.connectionSlots)
  rw [h.shape]
  cases rawManifest
  cases hdefinitions
  cases hslots
  rw [WorkflowPortableManifest.mk.injEq]
  exact ⟨hgraph.trans hmanifestGraph, rfl, rfl⟩

/-- Some step of the manifest has a connection reference that parsing keeps. -/
def CarriesReference (manifest : WorkflowPortableManifest Number) : Prop :=
  exists fields, fields ∈ nodesWithin manifest.graph.nodes ∧
    exists slot, slot ∈ fields.connectionRefs.keys ∧ slot ≠ protoKey

theorem not_carriesReference_of_inspected {rawManifest : WorkflowPortableManifest Number}
    {bindings : List PortableConnectionBinding} {inspected : InspectedManifest Number}
    (h : inspectWorkflowPortableManifest isUuid rawManifest bindings catalog = .ok inspected) :
    ¬ CarriesReference rawManifest := by
  rintro ⟨fields, hfields, slot, hslot, hne⟩
  rcases exists_inspected h with ⟨graph, selected, hfound⟩
  have hkept : keepReferences fields ∈ nodesWithin graph.nodes := by
    rw [hfound.parsed]
    show _ ∈ nodesWithin (mapNodes keepReferences rawManifest.graph.nodes)
    rw [nodesWithin_mapNodes]
    exact List.mem_map_of_mem hfields
  have hempty := hfound.unbound _ hkept
  rcases List.mem_map.mp hslot with ⟨reference, hreference, rfl⟩
  have hkeeps : keepsKey reference.fst = true := by
    rw [keepsKey, Bool.not_eq_true', beq_eq_false_iff_ne]
    exact hne
  have hmem : reference.fst ∈ (keepReferences fields).connectionRefs.keys :=
    List.mem_map_of_mem (List.mem_filter.mpr ⟨hreference, hkeeps⟩)
  rw [hempty] at hmem
  cases hmem

theorem exists_error_of_not_ok {ε : Type} {x : Except ε β} (h : forall b, x ≠ .ok b) :
    exists e, x = .error e := by
  cases x with
  | error e => exact ⟨e, rfl⟩
  | ok b => exact absurd rfl (h b)

/-- Inspecting a projected manifest with the connections of the graph gives the graph back, and
nothing but such a manifest is accepted. -/
theorem portable_round_trip {input : WorkflowGraph Number}
    {manifest : WorkflowPortableManifest Number}
    (h : projectWorkflowPortableManifest isUuid input catalog = .ok manifest) :
    exists graph,
      parseWorkflowGraphDraft isUuid input = .ok graph ∧
      (exists issues,
        inspectWorkflowPortableManifest isUuid manifest (connectionBindings graph) catalog =
          .ok { graph, issues }) ∧
      (forall bindings, bindings.Perm (connectionBindings graph) ->
        exists inspected,
          inspectWorkflowPortableManifest isUuid manifest bindings catalog = .ok inspected ∧
          SameConnections inspected.graph graph ∧
          (bindingRequiredIssue ∈ inspected.issues ↔ MissesConnection catalog graph)) ∧
      (forall altered bindings, altered.graph = manifest.graph ->
        (altered.definitions ≠ manifest.definitions ∨
          altered.connectionSlots ≠ manifest.connectionSlots) ->
        exists failure,
          inspectWorkflowPortableManifest isUuid altered bindings catalog = .error failure) ∧
      (forall forged bindings, CarriesReference forged ->
        exists failure,
          inspectWorkflowPortableManifest isUuid forged bindings catalog = .error failure) := by
  rcases exists_projected h with ⟨graph, selected, hprojected⟩
  have hfactsOf := factsOf_of_facts hprojected.found
  refine ⟨graph, hprojected.parsed, ?_, ?_, ?_, ?_⟩
  · rcases hprojected.inspected (List.Perm.refl _) with ⟨bound, hbound, _, hreferences⟩
    have hsame : replaceConnections graph bound.references = graph := by
      apply replaceConnections_eq_self
      intro fields hfields
      rw [hreferences, foldl_bindingsOf_connectionBindings hfactsOf.nodup hfields]
    rw [hsame] at hbound
    exact ⟨_, hbound⟩
  · intro bindings hperm
    rcases hprojected.inspected hperm with ⟨bound, hbound, hseen, hreferences⟩
    refine ⟨_, hbound, ?_, ?_⟩
    · apply sameConnections_replaceConnections
      intro fields hfields
      rw [hreferences]
      exact perm_foldl_bindingsOf hfactsOf.nodup hfields hperm
    · rw [hseen, ← any_required_iff hfactsOf hperm]
      generalize (selected.required.any fun token =>
        !(bindings.map PortableConnectionBinding.token).contains token) = missing
      cases missing with
      | true => simp
      | false => simp
  · intro altered bindings hgraph haltered
    apply exists_error_of_not_ok
    intro inspected hinspected
    have hsame := unaltered_of_inspected hprojected hgraph hinspected
    rw [hsame] at haltered
    cases haltered with
    | inl hdefinitions => exact hdefinitions rfl
    | inr hslots => exact hslots rfl
  · intro forged bindings hcarries
    apply exists_error_of_not_ok
    intro inspected hinspected
    exact not_carriesReference_of_inspected hinspected hcarries

end

/-!
## A loop around a request
-/

instance : GraphNumber Nat where
  safeInteger := fun n => if n ≤ 9007199254740991 then some n else none
  compareInteger := fun n bound => compare (n : Int) bound

def sampleDefinition (key : String) (slots : List PortableConnectionSlotPolicy) :
    CatalogDefinition Nat :=
  { key := scriptString key
    version := .finite 1
    configVersion := .finite 1
    slots
    validateConfig := fun _ => true }

def sampleCatalog : WorkflowPortabilityCatalog Nat :=
  { definitions :=
      [sampleDefinition "core.foreach" [],
        sampleDefinition "http.request"
          [{ slot := scriptString "headers", providerKey := scriptString "http",
             authType := scriptString "http_headers", optional := none }]] }

def sampleFields (id key : String) (connectionRefs : TextRecord) : NodeFields Nat :=
  { id := scriptString id
    definition := { key := scriptString key, version := .finite 1 }
    position := { x := .finite 0, y := .finite 0 }
    configVersion := .finite 1
    config := []
    inputMappings := [(protoKey, .literal (.object [(scriptString "x", .bool true)]))]
    connectionRefs
    label := none
    disabled := none
    retry := none }

def sampleGraphOf (connectionRefs : TextRecord) : WorkflowGraph Nat :=
  { notes := none
    nodes :=
      [.structured (sampleFields "loop" "core.foreach" .empty)
        { maxIterations := .finite 2
          maxConcurrency := .finite 1
          edges := []
          settings := { maxRunDurationMs := none }
          inputPorts := [scriptString "item"]
          outputPorts := [scriptString "result"] }
        [.step (sampleFields "child" "http.request" connectionRefs)]]
    edges := []
    settings := { maxRunDurationMs := none }
    callable := none }

def sampleGraph : WorkflowGraph Nat :=
  sampleGraphOf (TextRecord.empty.define (scriptString "headers") (scriptString "connection-1"))

def hasUuidLength (text : ScriptString) : Bool :=
  text.length == 36

theorem portable_round_trip_sample :
    exists manifest graph issues,
      projectWorkflowPortableManifest hasUuidLength sampleGraph sampleCatalog = .ok manifest ∧
      parseWorkflowGraphDraft hasUuidLength sampleGraph = .ok graph ∧
      inspectWorkflowPortableManifest hasUuidLength manifest (connectionBindings graph)
        sampleCatalog = .ok { graph, issues } := by
  have hok : (projectWorkflowPortableManifest hasUuidLength sampleGraph sampleCatalog).isOk =
      true := by
    decide
  rcases exists_of_isOk hok with ⟨manifest, hmanifest⟩
  rcases portable_round_trip hmanifest with ⟨graph, hgraph, ⟨issues, hissues⟩, _⟩
  exact ⟨manifest, graph, issues, hmanifest, hgraph, hissues⟩

/-- A reference under the key that parsing drops is neither refused nor kept. -/
def forgedManifest : WorkflowPortableManifest Nat :=
  { graph := sampleGraphOf (TextRecord.empty.define protoKey (scriptString "connection-1"))
    definitions :=
      [{ key := scriptString "core.foreach", version := .finite 1, configVersion := .finite 1 },
        { key := scriptString "http.request", version := .finite 1, configVersion := .finite 1 }]
    connectionSlots :=
      [{ nodeId := scriptString "child", slot := scriptString "headers",
         providerKey := scriptString "http", authType := scriptString "http_headers" }] }

theorem forged_reference_accepted :
    ¬ forall forged bindings,
      (exists fields, fields ∈ nodesWithin forged.graph.nodes ∧
        fields.connectionRefs.keys ≠ []) ->
      exists failure,
        inspectWorkflowPortableManifest hasUuidLength forged bindings sampleCatalog =
          .error failure := by
  intro h
  have hcarries : exists fields, fields ∈ nodesWithin forgedManifest.graph.nodes ∧
      fields.connectionRefs.keys ≠ [] := by
    refine ⟨_, List.mem_cons_of_mem _ (List.mem_cons_self ..), ?_⟩
    decide
  have hok : (inspectWorkflowPortableManifest hasUuidLength forgedManifest [] sampleCatalog).isOk =
      true := by
    decide
  rcases h forgedManifest [] hcarries with ⟨failure, hfailure⟩
  rw [hfailure] at hok
  cases hok

end Portability
end Pertexo
