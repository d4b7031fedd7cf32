import Pertexo.Engine.Executable

/-!
# Loops around a step

## Finding a step

A step is found in its own graph, below the loops around it.
-/

namespace Pertexo
namespace Engine

open Library
open Values

def nodeIdsOf (nodes : List ExecutableNode) : List String :=
  nodes.map fun node => node.record.id

theorem findNodeContextInList_of_some {nodeId : String} {graph : ExecutableGraph}
    {ancestors : List String} {node : ExecutableNode} {rest : List ExecutableNode}
    {context : NodeContext} (h : findNodeContextIn nodeId graph ancestors node = some context) :
    findNodeContextInList nodeId graph ancestors (node :: rest) = some context := by
  rw [findNodeContextInList, h]

theorem findNodeContextInList_of_none {nodeId : String} {graph : ExecutableGraph}
    {ancestors : List String} {node : ExecutableNode} {rest : List ExecutableNode}
    (h : findNodeContextIn nodeId graph ancestors node = none) :
    findNodeContextInList nodeId graph ancestors (node :: rest) =
      findNodeContextInList nodeId graph ancestors rest := by
  rw [findNodeContextInList, h]

theorem findNodeContextIn_self (graph : ExecutableGraph) (ancestors : List String)
    (node : ExecutableNode) :
    findNodeContextIn node.record.id graph ancestors node =
      some { node := node, graph := graph, ancestors := ancestors } := by
  cases node with
  | step record => simp [findNodeContextIn, ExecutableNode.record]
  | forEach record maxIterations maxConcurrency nodes edges =>
      simp [findNodeContextIn, ExecutableNode.record]

theorem mem_executionNodesOf_self (node : ExecutableNode) : node ∈ executionNodesOf node := by
  cases node with
  | step record => exact List.mem_singleton.mpr rfl
  | forEach record maxIterations maxConcurrency nodes edges => exact List.mem_cons_self ..

theorem mem_executionNodesOfList_of_mem {node : ExecutableNode} {nodes : List ExecutableNode}
    (h : node ∈ nodes) : node ∈ executionNodesOfList nodes := by
  induction nodes with
  | nil => cases h
  | cons head rest ih =>
      rw [executionNodesOfList, List.mem_append]
      rcases List.mem_cons.mp h with rfl | hrest
      · exact Or.inl (mem_executionNodesOf_self node)
      · exact Or.inr (ih hrest)

mutual

theorem findNodeContextIn_eq_none {nodeId : String} (graph : ExecutableGraph)
    (ancestors : List String) :
    forall node, nodeId ∉ nodeIdsOf (executionNodesOf node) ->
      findNodeContextIn nodeId graph ancestors node = none
  | .step record, h => by
      have hne : record.id ≠ nodeId := by
        intro heq
        exact h (List.mem_singleton.mpr heq.symm)
      simp [findNodeContextIn, hne]
  | .forEach record maxIterations maxConcurrency nodes edges, h => by
      rw [executionNodesOf, nodeIdsOf, List.map_cons, List.mem_cons, not_or] at h
      have hne : record.id ≠ nodeId := fun heq => h.left heq.symm
      have hbody := findNodeContextInList_eq_none { nodes := nodes, edges := edges }
        (ancestors ++ [record.id]) nodes h.right
      simp [findNodeContextIn, hne, hbody]

theorem findNodeContextInList_eq_none {nodeId : String} (graph : ExecutableGraph)
    (ancestors : List String) :
    forall nodes, nodeId ∉ nodeIdsOf (executionNodesOfList nodes) ->
      findNodeContextInList nodeId graph ancestors nodes = none
  | [], _ => rfl
  | node :: rest, h => by
      rw [executionNodesOfList, nodeIdsOf, List.map_append, List.mem_append, not_or] at h
      rw [findNodeContextInList_of_none (findNodeContextIn_eq_none graph ancestors node h.left)]
      exact findNodeContextInList_eq_none graph ancestors rest h.right

end

theorem nodup_executionNodesOfList_cons {node : ExecutableNode} {rest : List ExecutableNode}
    (h : (nodeIdsOf (executionNodesOfList (node :: rest))).Nodup) :
    (nodeIdsOf (executionNodesOf node)).Nodup ∧
      (nodeIdsOf (executionNodesOfList rest)).Nodup ∧
      forall other, other ∈ executionNodesOfList rest ->
        other.record.id ∉ nodeIdsOf (executionNodesOf node) := by
  rw [executionNodesOfList, nodeIdsOf, List.map_append, List.nodup_append] at h
  refine ⟨h.left, h.right.left, ?_⟩
  intro other hother hmem
  exact h.right.right _ hmem _ (List.mem_map_of_mem hother) rfl

theorem findNodeContextInList_of_mem {graph : ExecutableGraph} {ancestors : List String}
    {node : ExecutableNode} {nodes : List ExecutableNode} (hmem : node ∈ nodes)
    (hnodup : (nodeIdsOf (executionNodesOfList nodes)).Nodup) :
    findNodeContextInList node.record.id graph ancestors nodes =
      some { node := node, graph := graph, ancestors := ancestors } := by
  induction nodes with
  | nil => cases hmem
  | cons head rest ih =>
      rcases nodup_executionNodesOfList_cons hnodup with ⟨_, hrest, hother⟩
      rcases List.mem_cons.mp hmem with rfl | htail
      · exact findNodeContextInList_of_some (findNodeContextIn_self graph ancestors node)
      · have hnone : findNodeContextIn node.record.id graph ancestors head = none :=
          findNodeContextIn_eq_none graph ancestors head
            (hother node (mem_executionNodesOfList_of_mem htail))
        rw [findNodeContextInList_of_none hnone]
        exact ih htail hrest

theorem nodup_nodeIdsOf {nodes : List ExecutableNode}
    (h : (nodeIdsOf (executionNodesOfList nodes)).Nodup) : (nodeIdsOf nodes).Nodup := by
  induction nodes with
  | nil => exact List.nodup_nil
  | cons node rest ih =>
      rcases nodup_executionNodesOfList_cons h with ⟨_, hrest, hother⟩
      rw [nodeIdsOf, List.map_cons, List.nodup_cons]
      refine ⟨?_, ih hrest⟩
      intro hmem
      rcases List.mem_map.mp hmem with ⟨other, hotherMem, hid⟩
      apply hother other (mem_executionNodesOfList_of_mem hotherMem)
      rw [hid]
      exact List.mem_map_of_mem (mem_executionNodesOf_self node)

/-!
## Bodies of loops
-/

structure IsLoopBody (nodes : List ExecutableNode) (loopId : String)
    (body : List ExecutableNode) : Prop where
  found : exists record maxIterations maxConcurrency edges,
    ExecutableNode.forEach record maxIterations maxConcurrency body edges ∈ nodes ∧
      record.id = loopId

mutual

theorem mem_of_loopBody_of {loopId : String} {body : List ExecutableNode}
    {inner : ExecutableNode} (hinner : inner ∈ body) :
    forall node, IsLoopBody (executionNodesOf node) loopId body ->
      inner ∈ executionNodesOf node
  | .step record, ⟨⟨_, _, _, _, hmem, _⟩⟩ => by
      cases List.mem_singleton.mp hmem
  | .forEach record maxIterations maxConcurrency nodes edges, ⟨⟨r, mi, mc, es, hmem, hid⟩⟩ => by
      rw [executionNodesOf] at hmem ⊢
      apply List.mem_cons_of_mem
      rcases List.mem_cons.mp hmem with heq | hnested
      · injection heq with _ _ _ hbody _
        exact mem_executionNodesOfList_of_mem (hbody ▸ hinner)
      · exact mem_of_loopBody_ofList hinner nodes ⟨⟨r, mi, mc, es, hnested, hid⟩⟩

theorem mem_of_loopBody_ofList {loopId : String} {body : List ExecutableNode}
    {inner : ExecutableNode} (hinner : inner ∈ body) :
    forall nodes, IsLoopBody (executionNodesOfList nodes) loopId body ->
      inner ∈ executionNodesOfList nodes
  | [], ⟨⟨_, _, _, _, hmem, _⟩⟩ => by
      cases hmem
  | node :: rest, ⟨⟨r, mi, mc, es, hmem, hid⟩⟩ => by
      rw [executionNodesOfList, List.mem_append] at hmem ⊢
      rcases hmem with hnode | hrest
      · exact Or.inl (mem_of_loopBody_of hinner node ⟨⟨r, mi, mc, es, hnode, hid⟩⟩)
      · exact Or.inr (mem_of_loopBody_ofList hinner rest ⟨⟨r, mi, mc, es, hrest, hid⟩⟩)

end

mutual

theorem nodup_loopBody {loopId : String} {body : List ExecutableNode} :
    forall node, (nodeIdsOf (executionNodesOf node)).Nodup ->
      IsLoopBody (executionNodesOf node) loopId body ->
      (nodeIdsOf (executionNodesOfList body)).Nodup
  | .step record, _, ⟨⟨_, _, _, _, hmem, _⟩⟩ => by
      cases List.mem_singleton.mp hmem
  | .forEach record maxIterations maxConcurrency nodes edges, hnodup,
      ⟨⟨r, mi, mc, es, hmem, hid⟩⟩ => by
      rw [executionNodesOf, nodeIdsOf, List.map_cons, List.nodup_cons] at hnodup
      rw [executionNodesOf] at hmem
      rcases List.mem_cons.mp hmem with heq | hnested
      · injection heq with _ _ _ hbody _
        rw [hbody]
        exact hnodup.right
      · exact nodup_loopBodyList nodes hnodup.right ⟨⟨r, mi, mc, es, hnested, hid⟩⟩

theorem nodup_loopBodyList {loopId : String} {body : List ExecutableNode} :
    forall nodes, (nodeIdsOf (executionNodesOfList nodes)).Nodup ->
      IsLoopBody (executionNodesOfList nodes) loopId body ->
      (nodeIdsOf (executionNodesOfList body)).Nodup
  | [], _, ⟨⟨_, _, _, _, hmem, _⟩⟩ => by
      cases hmem
  | node :: rest, hnodup, ⟨⟨r, mi, mc, es, hmem, hid⟩⟩ => by
      rcases nodup_executionNodesOfList_cons hnodup with ⟨hnode, hrest, _⟩
      rw [executionNodesOfList, List.mem_append] at hmem
      rcases hmem with hhead | htail
      · exact nodup_loopBody node hnode ⟨⟨r, mi, mc, es, hhead, hid⟩⟩
      · exact nodup_loopBodyList rest hrest ⟨⟨r, mi, mc, es, htail, hid⟩⟩

end

structure FoundBelow (find : String -> Option NodeContext) (loopId : String)
    (body : List ExecutableNode) : Prop where
  contexts : exists context, find loopId = some context ∧
    forall inner, inner ∈ body -> exists innerContext,
      find inner.record.id = some innerContext ∧
        innerContext.ancestors = context.ancestors ++ [loopId]

theorem FoundBelow.congr {find find' : String -> Option NodeContext} {loopId : String}
    {body : List ExecutableNode} (h : FoundBelow find loopId body)
    (hloop : find' loopId = find loopId)
    (hbody : forall inner, inner ∈ body -> find' inner.record.id = find inner.record.id) :
    FoundBelow find' loopId body := by
  rcases h.contexts with ⟨context, hcontext, hinner⟩
  refine ⟨⟨context, hloop.trans hcontext, ?_⟩⟩
  intro inner hmem
  rw [hbody inner hmem]
  exact hinner inner hmem

mutual

theorem foundBelow_of (graph : ExecutableGraph) (ancestors : List String) {loopId : String}
    {body : List ExecutableNode} :
    forall node, (nodeIdsOf (executionNodesOf node)).Nodup ->
      IsLoopBody (executionNodesOf node) loopId body ->
      FoundBelow (fun id => findNodeContextIn id graph ancestors node) loopId body
  | .step record, _, ⟨⟨_, _, _, _, hmem, _⟩⟩ => by
      cases List.mem_singleton.mp hmem
  | .forEach record maxIterations maxConcurrency nodes edges, hnodup,
      ⟨⟨r, mi, mc, es, hmem, hid⟩⟩ => by
      rw [executionNodesOf, nodeIdsOf, List.map_cons, List.nodup_cons] at hnodup
      -- below the loop itself, a step is searched for in the body
      have hdescend : forall other, other ∈ executionNodesOfList nodes ->
          findNodeContextIn other.record.id graph ancestors
              (.forEach record maxIterations maxConcurrency nodes edges) =
            findNodeContextInList other.record.id { nodes := nodes, edges := edges }
              (ancestors ++ [record.id]) nodes := by
        intro other hother
        have hne : record.id ≠ other.record.id := by
          intro heq
          exact hnodup.left (List.mem_map.mpr ⟨other, hother, heq.symm⟩)
        simp [findNodeContextIn, hne]
      rw [executionNodesOf] at hmem
      rcases List.mem_cons.mp hmem with heq | hnested
      · injection heq with hrecord _ _ hbody _
        rw [← hid, hrecord]
        refine ⟨⟨_, findNodeContextIn_self graph ancestors
          (.forEach record maxIterations maxConcurrency nodes edges), ?_⟩⟩
        intro inner hinner
        rw [hbody] at hinner
        refine ⟨{ node := inner, graph := { nodes := nodes, edges := edges },
                  ancestors := ancestors ++ [record.id] }, ?_, rfl⟩
        rw [hdescend inner (mem_executionNodesOfList_of_mem hinner)]
        exact findNodeContextInList_of_mem hinner hnodup.right
      · have hbelow := foundBelow_ofList { nodes := nodes, edges := edges }
          (ancestors ++ [record.id]) nodes hnodup.right ⟨⟨r, mi, mc, es, hnested, hid⟩⟩
        apply hbelow.congr
        · rw [← hid]
          exact hdescend _ hnested
        · intro inner hinner
          exact hdescend inner
            (mem_of_loopBody_ofList hinner nodes ⟨⟨r, mi, mc, es, hnested, hid⟩⟩)

theorem foundBelow_ofList (graph : ExecutableGraph) (ancestors : List String) {loopId : String}
    {body : List ExecutableNode} :
    forall nodes, (nodeIdsOf (executionNodesOfList nodes)).Nodup ->
      IsLoopBody (executionNodesOfList nodes) loopId body ->
      FoundBelow (fun id => findNodeContextInList id graph ancestors nodes) loopId body
  | [], _, ⟨⟨_, _, _, _, hmem, _⟩⟩ => by
      cases hmem
  | node :: rest, hnodup, ⟨⟨r, mi, mc, es, hmem, hid⟩⟩ => by
      rcases nodup_executionNodesOfList_cons hnodup with ⟨hnode, hrest, hother⟩
      rw [executionNodesOfList, List.mem_append] at hmem
      rcases hmem with hhead | htail
      · have hbelow := foundBelow_of graph ancestors node hnode ⟨⟨r, mi, mc, es, hhead, hid⟩⟩
        rcases hbelow.contexts with ⟨context, hcontext, hinner⟩
        refine ⟨⟨context, findNodeContextInList_of_some hcontext, ?_⟩⟩
        intro inner hmem
        rcases hinner inner hmem with ⟨innerContext, hfound, hancestors⟩
        exact ⟨innerContext, findNodeContextInList_of_some hfound, hancestors⟩
      · have hbody : IsLoopBody (executionNodesOfList rest) loopId body :=
          ⟨⟨r, mi, mc, es, htail, hid⟩⟩
        have hskip : forall other, other ∈ executionNodesOfList rest ->
            findNodeContextInList other.record.id graph ancestors (node :: rest) =
              findNodeContextInList other.record.id graph ancestors rest := by
          intro other hmem
          exact findNodeContextInList_of_none
            (findNodeContextIn_eq_none graph ancestors node (hother other hmem))
        apply (foundBelow_ofList graph ancestors rest hrest hbody).congr
        · rw [← hid]
          exact hskip _ htail
        · intro inner hinner
          exact hskip inner (mem_of_loopBody_ofList hinner rest hbody)

end

mutual

theorem isLoopBody_of_structuredBody {body : StructuredBody} :
    forall node, body ∈ structuredBodiesOf node ->
      exists nodes, IsLoopBody (executionNodesOf node) body.loopNodeId nodes ∧
        body.level.nodes = nodes.map ExecutableNode.record
  | .step record, h => by
      cases h
  | .forEach record maxIterations maxConcurrency nodes edges, h => by
      rw [structuredBodiesOf] at h
      rw [executionNodesOf]
      rcases List.mem_cons.mp h with rfl | hnested
      · exact ⟨nodes, ⟨⟨record, maxIterations, maxConcurrency, edges, List.mem_cons_self .., rfl⟩⟩,
          rfl⟩
      · rcases isLoopBody_of_structuredBodyList nodes hnested with
          ⟨inner, ⟨⟨r, mi, mc, es, hmem, hid⟩⟩, hlevel⟩
        exact ⟨inner, ⟨⟨r, mi, mc, es, List.mem_cons_of_mem _ hmem, hid⟩⟩, hlevel⟩

theorem isLoopBody_of_structuredBodyList {body : StructuredBody} :
    forall nodes, body ∈ structuredBodiesOfList nodes ->
      exists inner, IsLoopBody (executionNodesOfList nodes) body.loopNodeId inner ∧
        body.level.nodes = inner.map ExecutableNode.record
  | [], h => by
      cases h
  | node :: rest, h => by
      rw [structuredBodiesOfList, List.mem_append] at h
      rw [executionNodesOfList]
      rcases h with hhead | htail
      · rcases isLoopBody_of_structuredBody node hhead with
          ⟨inner, ⟨⟨r, mi, mc, es, hmem, hid⟩⟩, hlevel⟩
        exact ⟨inner, ⟨⟨r, mi, mc, es, List.mem_append_left _ hmem, hid⟩⟩, hlevel⟩
      · rcases isLoopBody_of_structuredBodyList rest htail with
          ⟨inner, ⟨⟨r, mi, mc, es, hmem, hid⟩⟩, hlevel⟩
        exact ⟨inner, ⟨⟨r, mi, mc, es, List.mem_append_right _ hmem, hid⟩⟩, hlevel⟩

end

/-!
## Ancestors in an executable
-/

variable {executable : CompiledWorkflowExecutable}

theorem ancestorsOf_root {node : ExecutableNode} (h : node ∈ executable.graph.nodes) :
    ancestorsOf executable.graph node.record.id = some [] := by
  rw [ancestorsOf, findExecutableNodeContext,
    findNodeContextInList_of_mem h executable.node_ids_nodup]
  rfl

theorem ancestorsOf_body {loopId : String} {body : List ExecutableNode}
    (h : IsLoopBody (executionNodes executable) loopId body) {inner : ExecutableNode}
    (hinner : inner ∈ body) {ancestors : List String}
    (hloop : ancestorsOf executable.graph loopId = some ancestors) :
    ancestorsOf executable.graph inner.record.id = some (ancestors ++ [loopId]) := by
  have hbelow := foundBelow_ofList executable.graph [] executable.graph.nodes
    executable.node_ids_nodup h
  rcases hbelow.contexts with ⟨context, hcontext, hfound⟩
  rcases hfound inner hinner with ⟨innerContext, hinnerContext, hancestors⟩
  have hcontext' : findExecutableNodeContext executable.graph loopId = some context := hcontext
  rw [ancestorsOf, hcontext', Option.map_some, Option.some.injEq] at hloop
  have hinner' : findExecutableNodeContext executable.graph inner.record.id =
      some innerContext := hinnerContext
  rw [ancestorsOf, hinner', Option.map_some, hancestors, hloop]

theorem mem_nodesById {node : ExecutableNode} :
    node ∈ nodesById executable ↔ node ∈ executionNodes executable :=
  Keyed.mem_ofList executable.node_ids_nodup

theorem isLoopBody_of_structured {node : ExecutableNode} {loopId : String}
    {structured : ForEachStructure} (hnode : (nodesById executable).get? loopId = some node)
    (hstructured : node.structured = some structured) :
    IsLoopBody (executionNodes executable) loopId structured.body.nodes := by
  rcases Keyed.get?_eq_some_iff.mp hnode with ⟨hmem, hid⟩
  cases node with
  | step record => cases hstructured
  | forEach record maxIterations maxConcurrency nodes edges =>
      cases hstructured
      exact ⟨⟨record, maxIterations, maxConcurrency, edges, mem_nodesById.mp hmem, hid⟩⟩

end Engine
end Pertexo
