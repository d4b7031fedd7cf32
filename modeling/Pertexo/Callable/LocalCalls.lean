import Pertexo.Callable.ClosureExactness
import Pertexo.Engine.StepRuns

/-!
# Calls of a graph

## Summaries

Every structured call site keeps its weight: the product of the iteration bounds
around it. The schema of a graph admits positive bounds only.
-/

namespace Pertexo
namespace Callable

open Library
open Engine

structure Multiplicity where
  count : Nat
  count_pos : 0 < count

def Multiplicity.one : Multiplicity :=
  { count := 1, count_pos := Nat.one_pos }

def Multiplicity.times (multiplicity : Multiplicity) (maxIterations : Nat) : Option Multiplicity :=
  if h : 0 < maxIterations then
    some
      { count := multiplicity.count * maxIterations
        count_pos := Nat.mul_pos multiplicity.count_pos h }
  else none

/-- The call of a step; the target is what the config schema reads of its config. -/
def callOf (targetOf : NodeRecord -> Option WorkflowCallPin) (multiplicity : Multiplicity)
    (node : NodeRecord) : Option (List CallSite) :=
  if isWorkflowCallDefinition node.definition then
    (targetOf node).map fun pin =>
      [{ nodeId := node.id
         pin := pin
         multiplicity := multiplicity.count
         multiplicity_pos := multiplicity.count_pos }]
  else some []

mutual

def callsOf (targetOf : NodeRecord -> Option WorkflowCallPin) (multiplicity : Multiplicity) :
    ExecutableNode -> Option (List CallSite)
  | .step record => callOf targetOf multiplicity record
  | .forEach record maxIterations _ nodes _ => do
      let own ← callOf targetOf multiplicity record
      let inner ← multiplicity.times maxIterations
      let body ← callsOfList targetOf inner nodes
      some (own ++ body)

def callsOfList (targetOf : NodeRecord -> Option WorkflowCallPin) (multiplicity : Multiplicity) :
    List ExecutableNode -> Option (List CallSite)
  | [] => some []
  | node :: rest => do
      let first ← callsOf targetOf multiplicity node
      let later ← callsOfList targetOf multiplicity rest
      some (first ++ later)

end

/-- Graph validation supplies the local count; a config that its schema refuses has no summary. -/
def summarizeWorkflowCalls (targetOf : NodeRecord -> Option WorkflowCallPin)
    (identity : WorkflowCallPin) (workspaceId : String) (graph : ExecutableGraph)
    (expandedInvocations : Nat) : Option CallableVersionSummary := do
  let calls ← callsOfList targetOf Multiplicity.one graph.nodes
  some
    { toWorkflowCallPin := identity
      workspaceId := workspaceId
      expandedInvocations := expandedInvocations
      calls := calls }

/-!
## Weights of call sites
-/

section

variable {targetOf : NodeRecord -> Option WorkflowCallPin} {multiplicity : Multiplicity}
variable {executable : CompiledWorkflowExecutable} {loops : List String} {site : CallSite}

/-- The site stands at a Call step, with the product of the bounds of the loops around it. -/
structure IsWeighted (executable : CompiledWorkflowExecutable) (site : CallSite) : Prop where
  step : exists node, node ∈ executionNodes executable ∧ node.record.id = site.nodeId ∧
    isWorkflowCallDefinition node.record.definition = true
  weight : exists loops, ancestorsOf executable.graph site.nodeId = some loops ∧
    site.multiplicity = (loops.map (iterationBound executable)).prod

theorem isWeighted_of_callOf {node : ExecutableNode} {calls : List CallSite}
    (hmem : node ∈ executionNodes executable)
    (hloops : ancestorsOf executable.graph node.record.id = some loops)
    (hweight : multiplicity.count = (loops.map (iterationBound executable)).prod)
    (h : callOf targetOf multiplicity node.record = some calls) (hsite : site ∈ calls) :
    IsWeighted executable site := by
  unfold callOf at h
  split at h
  · next hcall =>
    rcases Option.map_eq_some_iff.mp h with ⟨pin, _, rfl⟩
    cases List.mem_singleton.mp hsite
    exact ⟨⟨node, hmem, rfl, hcall⟩, ⟨loops, hloops, hweight⟩⟩
  · cases h
    cases hsite

theorem weight_of_times {inner : Multiplicity} {loopId : String} {maxIterations : Nat}
    (hbound : iterationBound executable loopId = maxIterations)
    (hweight : multiplicity.count = (loops.map (iterationBound executable)).prod)
    (h : multiplicity.times maxIterations = some inner) :
    inner.count = ((loops ++ [loopId]).map (iterationBound executable)).prod := by
  unfold Multiplicity.times at h
  split at h
  · cases h
    show multiplicity.count * maxIterations = _
    rw [List.map_append, List.prod_append, ← hweight, List.map_singleton, List.prod_singleton,
      hbound]
  · cases h

mutual

theorem isWeighted_of_callsOf :
    forall (multiplicity : Multiplicity) (loops : List String) (node : ExecutableNode)
      (calls : List CallSite),
      (forall inner, inner ∈ executionNodesOf node -> inner ∈ executionNodes executable) ->
      ancestorsOf executable.graph node.record.id = some loops ->
      multiplicity.count = (loops.map (iterationBound executable)).prod ->
      callsOf targetOf multiplicity node = some calls -> site ∈ calls ->
      IsWeighted executable site
  | multiplicity, loops, .step record, calls, hnodes, hloops, hweight, h, hsite => by
      have hmem := hnodes _ (mem_executionNodesOf_self _)
      exact isWeighted_of_callOf hmem hloops hweight h hsite
  | multiplicity, loops, .forEach record maxIterations maxConcurrency nodes edges, calls, hnodes,
      hloops, hweight, h, hsite => by
      have hmem := hnodes _ (mem_executionNodesOf_self _)
      rw [callsOf] at h
      rcases Option.bind_eq_some_iff.mp h with ⟨own, hown, h⟩
      rcases Option.bind_eq_some_iff.mp h with ⟨inner, hinner, h⟩
      rcases Option.bind_eq_some_iff.mp h with ⟨body, hbody, h⟩
      cases h
      rcases List.mem_append.mp hsite with hfirst | hlater
      · exact isWeighted_of_callOf hmem hloops hweight hown hfirst
      · have hloopBody : IsLoopBody (executionNodes executable) record.id nodes :=
          ⟨⟨record, maxIterations, maxConcurrency, edges, hmem, rfl⟩⟩
        have hbound : iterationBound executable record.id = maxIterations :=
          iterationBound_of_structured (Keyed.get?_of_mem (mem_nodesById.mpr hmem)) rfl
        apply isWeighted_of_callsOfList inner (loops ++ [record.id]) nodes body
        · intro other hother
          apply hnodes other
          rw [executionNodesOf]
          exact List.mem_cons_of_mem _ hother
        · exact fun other hother => ancestorsOf_body hloopBody hother hloops
        · exact weight_of_times hbound hweight hinner
        · exact hbody
        · exact hlater

theorem isWeighted_of_callsOfList :
    forall (multiplicity : Multiplicity) (loops : List String) (nodes : List ExecutableNode)
      (calls : List CallSite),
      (forall inner, inner ∈ executionNodesOfList nodes -> inner ∈ executionNodes executable) ->
      (forall node, node ∈ nodes ->
        ancestorsOf executable.graph node.record.id = some loops) ->
      multiplicity.count = (loops.map (iterationBound executable)).prod ->
      callsOfList targetOf multiplicity nodes = some calls -> site ∈ calls ->
      IsWeighted executable site
  | multiplicity, loops, [], calls, _, _, _, h, hsite => by
      cases h
      cases hsite
  | multiplicity, loops, node :: rest, calls, hnodes, hloops, hweight, h, hsite => by
      rw [callsOfList] at h
      rcases Option.bind_eq_some_iff.mp h with ⟨first, hfirst, h⟩
      rcases Option.bind_eq_some_iff.mp h with ⟨later, hlater, h⟩
      cases h
      rw [executionNodesOfList] at hnodes
      rcases List.mem_append.mp hsite with hhead | htail
      · apply isWeighted_of_callsOf multiplicity loops node first
        · exact fun other hother => hnodes other (List.mem_append_left _ hother)
        · exact hloops node (List.mem_cons_self ..)
        · exact hweight
        · exact hfirst
        · exact hhead
      · apply isWeighted_of_callsOfList multiplicity loops rest later
        · exact fun other hother => hnodes other (List.mem_append_right _ hother)
        · exact fun other hother => hloops other (List.mem_cons_of_mem _ hother)
        · exact hweight
        · exact hlater
        · exact htail

end

theorem isWeighted_of_summarized {identity : WorkflowCallPin} {workspaceId : String}
    {expandedInvocations : Nat} {summary : CallableVersionSummary}
    (h : summarizeWorkflowCalls targetOf identity workspaceId executable.graph
      expandedInvocations = some summary) (hsite : site ∈ summary.calls) :
    IsWeighted executable site := by
  rcases Option.bind_eq_some_iff.mp h with ⟨calls, hcalls, h⟩
  cases h
  apply isWeighted_of_callsOfList Multiplicity.one [] executable.graph.nodes calls
  · exact fun _ hmem => hmem
  · exact fun node hnode => ancestorsOf_root hnode
  · rfl
  · exact hcalls
  · exact hsite

theorem exists_site_of_callOf {node : NodeRecord} {calls : List CallSite}
    (hcall : isWorkflowCallDefinition node.definition = true)
    (h : callOf targetOf multiplicity node = some calls) :
    exists site, site ∈ calls ∧ site.nodeId = node.id ∧ targetOf node = some site.pin := by
  unfold callOf at h
  rw [if_pos hcall] at h
  rcases Option.map_eq_some_iff.mp h with ⟨pin, hpin, rfl⟩
  exact ⟨_, List.mem_singleton_self _, rfl, hpin⟩

mutual

theorem exists_site_of_callsOf {node : ExecutableNode}
    (hcall : isWorkflowCallDefinition node.record.definition = true) :
    forall (multiplicity : Multiplicity) (tree : ExecutableNode) (calls : List CallSite),
      node ∈ executionNodesOf tree -> callsOf targetOf multiplicity tree = some calls ->
      exists site, site ∈ calls ∧ site.nodeId = node.record.id ∧
        targetOf node.record = some site.pin
  | multiplicity, .step record, calls, hnode, h => by
      rw [executionNodesOf, List.mem_singleton] at hnode
      rw [hnode] at hcall ⊢
      exact exists_site_of_callOf hcall h
  | multiplicity, .forEach record maxIterations maxConcurrency nodes edges, calls, hnode, h => by
      rw [callsOf] at h
      rcases Option.bind_eq_some_iff.mp h with ⟨own, hown, h⟩
      rcases Option.bind_eq_some_iff.mp h with ⟨inner, _, h⟩
      rcases Option.bind_eq_some_iff.mp h with ⟨body, hbody, h⟩
      cases h
      rw [executionNodesOf] at hnode
      rcases List.mem_cons.mp hnode with hself | hbelow
      · rw [hself] at hcall ⊢
        rcases exists_site_of_callOf hcall hown with ⟨site, hsite, hspec⟩
        exact ⟨site, List.mem_append_left _ hsite, hspec⟩
      · rcases exists_site_of_callsOfList hcall inner nodes body hbelow hbody with
          ⟨site, hsite, hspec⟩
        exact ⟨site, List.mem_append_right _ hsite, hspec⟩

theorem exists_site_of_callsOfList {node : ExecutableNode}
    (hcall : isWorkflowCallDefinition node.record.definition = true) :
    forall (multiplicity : Multiplicity) (nodes : List ExecutableNode) (calls : List CallSite),
      node ∈ executionNodesOfList nodes -> callsOfList targetOf multiplicity nodes = some calls ->
      exists site, site ∈ calls ∧ site.nodeId = node.record.id ∧
        targetOf node.record = some site.pin
  | multiplicity, [], calls, hnode, _ => by
      rw [executionNodesOfList] at hnode
      cases hnode
  | multiplicity, tree :: rest, calls, hnode, h => by
      rw [callsOfList] at h
      rcases Option.bind_eq_some_iff.mp h with ⟨first, hfirst, h⟩
      rcases Option.bind_eq_some_iff.mp h with ⟨later, hlater, h⟩
      cases h
      rw [executionNodesOfList] at hnode
      rcases List.mem_append.mp hnode with hhead | htail
      · rcases exists_site_of_callsOf hcall multiplicity tree first hhead hfirst with
          ⟨site, hsite, hspec⟩
        exact ⟨site, List.mem_append_left _ hsite, hspec⟩
      · rcases exists_site_of_callsOfList hcall multiplicity rest later htail hlater with
          ⟨site, hsite, hspec⟩
        exact ⟨site, List.mem_append_right _ hsite, hspec⟩

end

theorem exists_site_of_summarized {identity : WorkflowCallPin} {workspaceId : String}
    {expandedInvocations : Nat} {summary : CallableVersionSummary}
    (h : summarizeWorkflowCalls targetOf identity workspaceId executable.graph
      expandedInvocations = some summary) {node : ExecutableNode}
    (hnode : node ∈ executionNodes executable)
    (hcall : isWorkflowCallDefinition node.record.definition = true) :
    exists site, site ∈ summary.calls ∧ site.nodeId = node.record.id ∧
      targetOf node.record = some site.pin := by
  rcases Option.bind_eq_some_iff.mp h with ⟨calls, hcalls, h⟩
  cases h
  exact exists_site_of_callsOfList hcall Multiplicity.one executable.graph.nodes calls hnode hcalls

/-- A run of the executable runs a call site at most as often as its multiplicity. -/
theorem card_stepRuns_le_multiplicity {host : EngineHost} {workflowVersionId : String}
    {budget : Nat} {inputs : List AdvanceWorkflowInput} {checkpoint : WorkflowCheckpoint}
    (hrun : WorkflowRun host executable workflowVersionId budget inputs checkpoint)
    (h : IsWeighted executable site) :
    (stepRuns host inputs site.nodeId).card ≤ site.multiplicity := by
  rcases h.step with ⟨node, hmem, hid, hcall⟩
  rcases h.weight with ⟨loops, hloops, hweight⟩
  rw [hweight]
  apply card_stepRuns_le hrun _ hloops
  rintro ⟨merge, hget, hmerge⟩
  rw [← hid, Keyed.get?_of_mem (mem_nodesById.mpr hmem)] at hget
  cases hget
  rw [isWorkflowCallDefinition, Bool.and_eq_true, beq_iff_eq] at hcall
  rw [isCoreMergeDefinition, hcall.left] at hmerge
  simp at hmerge

end

/-!
## Exactness

The closure counts every call path once, whatever was visited before. Where it is refused for
several reasons, the order of the call sites decides which of them is reported.
-/

theorem call_closure_exact (family : VersionFamily) (root : CallableVersionSummary)
    (maximumInvocations : Nat) :
    (forall count,
      validateCallDependencyClosure root family maximumInvocations = Except.ok count ↔
        ValidBelow family root [] root ∧
          count = (finsum fun path => pathWeight family root path root) ∧
          count ≤ maximumInvocations) ∧
      (ValidBelow family root [] root ->
        {path | (pathEnd family root path root).isSome = true}.Finite) ∧
      validateCallDependencyClosure root family maximumInvocations ≠
        Except.error .outOfFuel ∧
      validateCallDependencyClosure root family maximumInvocations =
        (uncachedClosure family root maximumInvocations (closureFuel family) [] root).map
          Closure.count ∧
      (forall root' family', Reorders root root' ->
        List.Forall₂ Reorders family.summaries family'.summaries ->
        (validateCallDependencyClosure root family maximumInvocations).toOption =
          (validateCallDependencyClosure root' family' maximumInvocations).toOption) ∧
      forall targetOf identity workspaceId expandedInvocations
        (executable : CompiledWorkflowExecutable),
        summarizeWorkflowCalls targetOf identity workspaceId executable.graph
          expandedInvocations = some root ->
        (forall node, node ∈ executionNodes executable ->
          isWorkflowCallDefinition node.record.definition = true ->
          exists site, site ∈ root.calls ∧ site.nodeId = node.record.id ∧
            targetOf node.record = some site.pin) ∧
        forall site, site ∈ root.calls -> forall host workflowVersionId budget inputs checkpoint,
          WorkflowRun host executable workflowVersionId budget inputs checkpoint ->
          (stepRuns host inputs site.nodeId).card ≤ site.multiplicity := by
  refine ⟨fun _ => validateCallDependencyClosure_eq_ok_iff, ?_,
    validateCallDependencyClosure_ne_outOfFuel, validateCallDependencyClosure_eq, ?_, ?_⟩
  · exact fun hvalid => callPaths_finite hvalid (List.mem_cons_self ..)
  · exact fun _ _ hroot hfamily => toOption_validateCallDependencyClosure hroot hfamily
  · intro _ _ _ _ executable hsummary
    refine ⟨fun _ hnode hcall => exists_site_of_summarized hsummary hnode hcall, ?_⟩
    intro site hsite _ _ _ _ _ hrun
    exact card_stepRuns_le_multiplicity hrun (isWeighted_of_summarized hsummary hsite)

def samplePin (name : String) : WorkflowCallPin :=
  { workflowId := name, workflowVersionId := name ++ "1", executableChecksum := name ++ "2" }

def sampleSite (nodeId target : String) (multiplicity : Nat) (h : 0 < multiplicity) : CallSite :=
  { nodeId := nodeId, pin := samplePin target, multiplicity := multiplicity, multiplicity_pos := h }

def sampleVersion (name : String) (calls : List CallSite) : CallableVersionSummary :=
  { toWorkflowCallPin := samplePin name
    workspaceId := "w"
    expandedInvocations := 1
    calls := calls }

/-- A diamond: the shared version is visited below one call and read from the cache at another. -/
def sampleRoot : CallableVersionSummary :=
  sampleVersion "a" [sampleSite "x" "b" 2 (by decide), sampleSite "y" "c" 1 (by decide)]

def sampleFamily : VersionFamily :=
  { summaries :=
      [sampleVersion "b" [sampleSite "z" "c" 3 (by decide)], sampleVersion "c" []] }

theorem call_closure_exact_sample :
    (finsum fun path => pathWeight sampleFamily sampleRoot path sampleRoot) = 10 := by
  have hcount : validateCallDependencyClosure sampleRoot sampleFamily 10 = Except.ok 10 := by
    decide
  exact (((call_closure_exact sampleFamily sampleRoot 10).left 10).mp hcount).right.left.symm

/-- A call of a missing version and one of the root itself. -/
example :
    let missing := sampleSite "x" "d" 1 (by decide)
    let itself := sampleSite "y" "a" 1 (by decide)
    validateCallDependencyClosure (sampleVersion "a" [missing, itself]) sampleFamily 10 =
        .error .unresolved ∧
      validateCallDependencyClosure (sampleVersion "a" [itself, missing]) sampleFamily 10 =
        .error .cycle := by
  decide

end Callable
end Pertexo
