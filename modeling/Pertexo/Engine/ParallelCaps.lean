import Pertexo.Engine.Materialization
import Pertexo.Engine.Plan

/-!
# Parallel scopes and their caps

## Steps and the loops around them
-/

namespace Pertexo
namespace Engine

open Library
open Values

mutual

theorem mem_executionNodesOf_cases {node : ExecutableNode} :
    forall tree, node ∈ executionNodesOf tree -> node = tree ∨
      exists loopId body, IsLoopBody (executionNodesOf tree) loopId body ∧ node ∈ body
  | .step record, h => Or.inl (List.mem_singleton.mp h)
  | .forEach record maxIterations maxConcurrency nodes edges, h => by
      rw [executionNodesOf] at h ⊢
      rcases List.mem_cons.mp h with hself | hnested
      · exact Or.inl hself
      · apply Or.inr
        rcases mem_executionNodesOfList_cases nodes hnested with
          hroot | ⟨loopId, body, ⟨⟨r, mi, mc, es, hmem, hid⟩⟩, hbody⟩
        · exact ⟨record.id, nodes,
            ⟨⟨record, maxIterations, maxConcurrency, edges, List.mem_cons_self .., rfl⟩⟩, hroot⟩
        · exact ⟨loopId, body, ⟨⟨r, mi, mc, es, List.mem_cons_of_mem _ hmem, hid⟩⟩, hbody⟩

theorem mem_executionNodesOfList_cases {node : ExecutableNode} :
    forall nodes, node ∈ executionNodesOfList nodes -> node ∈ nodes ∨
      exists loopId body, IsLoopBody (executionNodesOfList nodes) loopId body ∧ node ∈ body
  | [], h => by
      cases h
  | first :: rest, h => by
      rw [executionNodesOfList, List.mem_append] at h
      rw [executionNodesOfList]
      rcases h with hfirst | hrest
      · rcases mem_executionNodesOf_cases first hfirst with
          rfl | ⟨loopId, body, ⟨⟨r, mi, mc, es, hmem, hid⟩⟩, hbody⟩
        · exact Or.inl (List.mem_cons_self ..)
        · exact Or.inr
            ⟨loopId, body, ⟨⟨r, mi, mc, es, List.mem_append_left _ hmem, hid⟩⟩, hbody⟩
      · rcases mem_executionNodesOfList_cases rest hrest with
          hroot | ⟨loopId, body, ⟨⟨r, mi, mc, es, hmem, hid⟩⟩, hbody⟩
        · exact Or.inl (List.mem_cons_of_mem _ hroot)
        · exact Or.inr
            ⟨loopId, body, ⟨⟨r, mi, mc, es, List.mem_append_right _ hmem, hid⟩⟩, hbody⟩

end

mutual

theorem structuredBody_of_isLoopBody {loopId : String} {body : List ExecutableNode} :
    forall tree, IsLoopBody (executionNodesOf tree) loopId body ->
      exists edges, { loopNodeId := loopId,
                      level := { nodes := body.map ExecutableNode.record, edges := edges } } ∈
        structuredBodiesOf tree
  | .step record, ⟨⟨_, _, _, _, hmem, _⟩⟩ => by
      cases List.mem_singleton.mp hmem
  | .forEach record maxIterations maxConcurrency nodes edges, ⟨⟨r, mi, mc, es, hmem, hid⟩⟩ => by
      rw [executionNodesOf] at hmem
      rw [structuredBodiesOf]
      rcases List.mem_cons.mp hmem with heq | hnested
      · injection heq with hrecord _ _ hbody _
        rw [← hid, hrecord, hbody]
        exact ⟨edges, List.mem_cons_self ..⟩
      · rcases structuredBody_of_isLoopBodyList nodes ⟨⟨r, mi, mc, es, hnested, hid⟩⟩ with
          ⟨inner, hinner⟩
        exact ⟨inner, List.mem_cons_of_mem _ hinner⟩

theorem structuredBody_of_isLoopBodyList {loopId : String} {body : List ExecutableNode} :
    forall nodes, IsLoopBody (executionNodesOfList nodes) loopId body ->
      exists edges, { loopNodeId := loopId,
                      level := { nodes := body.map ExecutableNode.record, edges := edges } } ∈
        structuredBodiesOfList nodes
  | [], ⟨⟨_, _, _, _, hmem, _⟩⟩ => by
      cases hmem
  | node :: rest, ⟨⟨r, mi, mc, es, hmem, hid⟩⟩ => by
      rw [executionNodesOfList, List.mem_append] at hmem
      rw [structuredBodiesOfList]
      rcases hmem with hhead | htail
      · rcases structuredBody_of_isLoopBody node ⟨⟨r, mi, mc, es, hhead, hid⟩⟩ with
          ⟨edges, hedges⟩
        exact ⟨edges, List.mem_append_left _ hedges⟩
      · rcases structuredBody_of_isLoopBodyList rest ⟨⟨r, mi, mc, es, htail, hid⟩⟩ with
          ⟨edges, hedges⟩
        exact ⟨edges, List.mem_append_right _ hedges⟩

end

variable {executable : CompiledWorkflowExecutable}

theorem ancestorsOf_ancestor {node : ExecutableNode} (hnode : node ∈ executionNodes executable)
    {loops : List String} (hloops : ancestorsOf executable.graph node.record.id = some loops) :
    forall outer loopId inner, loops = outer ++ loopId :: inner ->
      ancestorsOf executable.graph loopId = some outer := by
  induction hlength : loops.length generalizing node loops with
  | zero =>
      intro outer loopId inner hsplit
      rw [List.length_eq_zero_iff.mp hlength] at hsplit
      simp at hsplit
  | succ length ih =>
      intro outer loopId inner hsplit
      rcases mem_executionNodesOfList_cases executable.graph.nodes hnode with
        hroot | ⟨parentId, body, hbody, hmem⟩
      · rw [ancestorsOf_root hroot, Option.some.injEq] at hloops
        rw [← hloops] at hlength
        cases hlength
      · rcases hbody with ⟨⟨record, maxIterations, maxConcurrency, edges, hparent, hid⟩⟩
        have hfound := foundBelow_ofList executable.graph [] executable.graph.nodes
          executable.node_ids_nodup
          (IsLoopBody.mk ⟨record, maxIterations, maxConcurrency, edges, hparent, hid⟩)
        rcases hfound.contexts with ⟨context, hcontext, _⟩
        have hparentLoops : ancestorsOf executable.graph parentId = some context.ancestors := by
          have hsame : findExecutableNodeContext executable.graph parentId = some context :=
            hcontext
          rw [ancestorsOf, hsame]
          rfl
        have hown := ancestorsOf_body
          (IsLoopBody.mk ⟨record, maxIterations, maxConcurrency, edges, hparent, hid⟩) hmem
          hparentLoops
        rw [hloops, Option.some.injEq] at hown
        rw [hown] at hsplit hlength
        rcases List.eq_nil_or_concat inner with rfl | ⟨front, last, rfl⟩
        · rcases List.append_inj' hsplit rfl with ⟨houter, hlast⟩
          rw [← List.singleton_inj.mp hlast, ← houter]
          exact hparentLoops
        · rw [List.concat_eq_append, ← List.cons_append, ← List.append_assoc] at hsplit
          rcases List.append_inj' hsplit rfl with ⟨houter, _⟩
          have hrest : context.ancestors.length = length := by
            rw [List.length_append, List.length_singleton] at hlength
            exact Nat.succ.inj hlength
          have hparentId : (ExecutableNode.forEach record maxIterations maxConcurrency body
              edges).record.id = parentId := hid
          exact ih hparent (hparentId ▸ hparentLoops) hrest outer loopId front houter

/-!
## The scheduler's entries
-/

/-- The loop directly around a step is the last one of the loops around it. -/
def IsContaining (executable : CompiledWorkflowExecutable) (containingLoopId : Option String)
    (loops : List String) : Prop :=
  match containingLoopId with
  | none => loops = []
  | some loopId => exists outer, loops = outer ++ [loopId] ∧
      ancestorsOf executable.graph loopId = some outer

theorem schedulerEntry_containing {nodeId : String} {entry : SchedulerNodeEntry}
    (h : (indexTransitionNodes (schedulerState executable)).get? nodeId = some entry) :
    exists loops, ancestorsOf executable.graph nodeId = some loops ∧
      IsContaining executable entry.containingLoopId loops := by
  rcases Keyed.get?_eq_some_iff.mp h with ⟨hmem, hid⟩
  rcases List.mem_append.mp (Keyed.mem_of_mem_ofList hmem) with hroot | hbodies
  · rcases List.mem_map.mp hroot with ⟨record, hlevel, rfl⟩
    rcases mem_level_of_scheduler hlevel with ⟨node, hnode, rfl⟩
    have hsame : node.record.id = nodeId := hid
    rw [← hsame]
    exact ⟨[], ancestorsOf_root hnode, rfl⟩
  · rcases List.mem_flatMap.mp hbodies with ⟨body, hbody, hentry⟩
    rcases List.mem_map.mp hentry with ⟨record, hlevel, rfl⟩
    rcases isLoopBody_of_structuredBodyList executable.graph.nodes hbody with
      ⟨nodes, hloop, hnodes⟩
    rw [hnodes] at hlevel
    rcases List.mem_map.mp hlevel with ⟨node, hnode, rfl⟩
    have hsame : node.record.id = nodeId := hid
    rw [← hsame]
    have hfound := foundBelow_ofList executable.graph [] executable.graph.nodes
      executable.node_ids_nodup hloop
    rcases hfound.contexts with ⟨context, hcontext, _⟩
    have hloopLoops : ancestorsOf executable.graph body.loopNodeId = some context.ancestors := by
      have hcontext' : findExecutableNodeContext executable.graph body.loopNodeId =
          some context := hcontext
      rw [ancestorsOf, hcontext']
      rfl
    exact ⟨_, ancestorsOf_body hloop hnode hloopLoops, context.ancestors, rfl, hloopLoops⟩

theorem exists_schedulerEntry {node : ExecutableNode} (h : node ∈ executionNodes executable) :
    exists entry, (indexTransitionNodes (schedulerState executable)).get? node.record.id =
      some entry := by
  have hlisted : exists entry : SchedulerNodeEntry,
      entry ∈ (schedulerState executable).level.nodes.map (fun node => { node := node }) ++
        (schedulerState executable).structuredBodies.flatMap (fun body =>
          body.level.nodes.map fun node =>
            { node := node, containingLoopId := some body.loopNodeId }) ∧
      entry.node.id = node.record.id := by
    rcases mem_executionNodesOfList_cases executable.graph.nodes h with
      hroot | ⟨loopId, body, hbody, hmem⟩
    · refine ⟨{ node := node.record }, List.mem_append_left _ ?_, rfl⟩
      exact List.mem_map_of_mem (List.mem_map_of_mem hroot)
    · rcases structuredBody_of_isLoopBodyList executable.graph.nodes hbody with ⟨edges, hedges⟩
      refine ⟨{ node := node.record, containingLoopId := some loopId },
        List.mem_append_right _ ?_, rfl⟩
      refine List.mem_flatMap.mpr ⟨_, hedges, ?_⟩
      exact List.mem_map_of_mem (List.mem_map_of_mem hmem)
  rcases hlisted with ⟨entry, hentry, hid⟩
  rw [← hid]
  exact Keyed.exists_get?_ofList hentry

theorem exists_node_of_schedulerNode {nodeId : String} {entry : SchedulerNodeEntry}
    (h : (indexTransitionNodes (schedulerState executable)).get? nodeId = some entry) :
    exists node, (nodesById executable).get? nodeId = some node ∧ node.record = entry.node := by
  rcases Keyed.get?_eq_some_iff.mp h with ⟨hmem, hid⟩
  have hrecord : exists node, node ∈ executionNodes executable ∧ node.record = entry.node := by
    rcases List.mem_append.mp (Keyed.mem_of_mem_ofList hmem) with hroot | hbodies
    · rcases List.mem_map.mp hroot with ⟨record, hlevel, rfl⟩
      rcases mem_level_of_scheduler hlevel with ⟨node, hnode, hsame⟩
      exact ⟨node, mem_executionNodesOfList_of_mem hnode, hsame⟩
    · rcases List.mem_flatMap.mp hbodies with ⟨body, hbody, hentry⟩
      rcases List.mem_map.mp hentry with ⟨record, hlevel, rfl⟩
      rcases isLoopBody_of_structuredBodyList executable.graph.nodes hbody with
        ⟨nodes, hloop, hnodes⟩
      rw [hnodes] at hlevel
      rcases List.mem_map.mp hlevel with ⟨node, hnode, hsame⟩
      exact ⟨node, mem_of_loopBody_ofList hnode executable.graph.nodes hloop, hsame⟩
  rcases hrecord with ⟨node, hnode, hsame⟩
  refine ⟨node, Keyed.get?_eq_some_iff.mpr ⟨mem_nodesById.mpr hnode, ?_⟩, hsame⟩
  rw [hsame]
  exact hid

/-!
## Inside a Parallel step

An invocation is inside a Parallel step in one branch and in one iteration of
the loops around that step. It may be in a nested Parallel step there.
-/

def isInsideParallel (executable : CompiledWorkflowExecutable) (parallel : ParallelConstraint)
    (invocation : InvocationState) : Bool :=
  (invocation.branchPath.getD []).take parallel.branchPrefix.length == parallel.branchPrefix &&
    (invocation.branchPath.getD [])[parallel.branchPrefix.length]?.any
      (fun part => part.nodeId == parallel.nodeId) &&
    parallel.iterationPrefix.isPrefixOf (invocation.iterationPath.getD []) &&
    ancestorsOf executable.graph parallel.nodeId ==
      some (parallel.iterationPrefix.map IterationScopePart.loopNodeId)

/-- The running invocations inside a Parallel step. -/
def runningInside (executable : CompiledWorkflowExecutable) (parallel : ParallelConstraint)
    (invocations : List InvocationState) : Nat :=
  invocations.countP fun invocation =>
    invocation.status == .running && isInsideParallel executable parallel invocation

/-!
## The caps of an invocation
-/

/-- The caps that an invocation counts against; none when its scope cannot be read. -/
def capsOf (nodes : SchedulerNodeLookup) (invocation : InvocationState) :
    List ParallelConstraint :=
  match parallelLimits nodes invocation with
  | Except.error _ => []
  | Except.ok limits => limits.map ParallelLimit.constraint

def capLimit (nodes : SchedulerNodeLookup) (cap : ParallelConstraint) : Nat :=
  ((nodes.get? cap.nodeId).bind fun entry => configuredParallelMaxConcurrency entry.node).getD 0

section

variable {nodes : SchedulerNodeLookup} {invocation : InvocationState}
variable {limits : List ParallelLimit}

theorem capsOf_eq (h : parallelLimits nodes invocation = Except.ok limits) :
    capsOf nodes invocation = limits.map ParallelLimit.constraint := by
  rw [capsOf, h]

/-- Only the scope of an invocation decides its caps. -/
theorem parallelLimits_of_scope {other : InvocationState} (h : invocation.scope = other.scope) :
    parallelLimits nodes invocation = parallelLimits nodes other := by
  have hbranch : invocation.branchPath.getD [] = other.branchPath.getD [] :=
    congrArg StepScope.branch h
  have hpath : invocation.iterationPath.getD [] = other.iterationPath.getD [] :=
    congrArg StepScope.path h
  have hlimit : parallelLimit nodes invocation = parallelLimit nodes other := by
    funext part
    rw [parallelLimit, parallelLimit, hbranch, hpath]
  rw [parallelLimits, parallelLimits, hbranch, hlimit]

theorem capsOf_of_scope {other : InvocationState} (h : invocation.scope = other.scope) :
    capsOf nodes invocation = capsOf nodes other := by
  rw [capsOf, capsOf, parallelLimits_of_scope h]

/-- The cap of the Parallel step that a part of the branch path names. -/
structure IsCapAt (nodes : SchedulerNodeLookup) (invocation : InvocationState) (index : Nat)
    (limit : ParallelLimit) : Prop where
  part : exists part entry, (invocation.branchPath.getD [])[index]? = some part ∧
    nodes.get? part.nodeId = some entry ∧
    configuredParallelMaxConcurrency entry.node = some limit.limit ∧
    limit.constraint.nodeId = part.nodeId ∧
    containingIterationPrefix entry.containingLoopId (invocation.iterationPath.getD []) =
      Except.ok limit.constraint.iterationPrefix
  branchPrefix : limit.constraint.branchPrefix = (invocation.branchPath.getD []).take index

theorem parallelLimit_cases {part : BranchScopePart} {index : Nat} {found : List ParallelLimit}
    (hpart : (invocation.branchPath.getD [])[index]? = some part)
    (h : parallelLimit nodes invocation (part, index) = Except.ok found) :
    (found = [] ∧ forall entry, nodes.get? part.nodeId = some entry ->
        configuredParallelMaxConcurrency entry.node = none) ∨
      exists limit, found = [limit] ∧ IsCapAt nodes invocation index limit := by
  unfold parallelLimit at h
  dsimp only at h
  split at h
  · next hnone =>
    cases h
    apply Or.inl
    refine ⟨rfl, ?_⟩
    intro entry hentry
    rw [hnone] at hentry
    cases hentry
  · next entry hentry =>
    split at h
    · next hunset =>
      cases h
      apply Or.inl
      refine ⟨rfl, ?_⟩
      intro other hother
      rw [hentry] at hother
      cases hother
      exact hunset
    · next limit hlimit =>
      rcases exists_of_bind_eq_ok h with ⟨iterationPrefix, hbefore, hfound⟩
      cases hfound
      apply Or.inr
      exact ⟨_, rfl, ⟨⟨part, entry, hpart, hentry, hlimit, rfl, hbefore⟩, rfl⟩⟩

theorem isCapAt_of_mem (h : parallelLimits nodes invocation = Except.ok limits)
    {limit : ParallelLimit} (hmem : limit ∈ limits) :
    exists index, IsCapAt nodes invocation index limit := by
  unfold parallelLimits at h
  rcases exists_of_bind_eq_ok h with ⟨lists, hlists, hlimits⟩
  cases hlimits
  rcases List.mem_flatten.mp hmem with ⟨found, hfound, hlimit⟩
  rcases exists_of_mem_mapM hlists hfound with ⟨⟨part, index⟩, hpart, hread⟩
  rw [List.mem_zipIdx_iff_getElem?] at hpart
  rcases parallelLimit_cases hpart hread with ⟨rfl, _⟩ | ⟨only, rfl, hcap⟩
  · cases hlimit
  · rw [List.mem_singleton.mp hlimit]
    exact ⟨index, hcap⟩

theorem exists_cap_of_part (h : parallelLimits nodes invocation = Except.ok limits)
    {part : BranchScopePart} {index maximum : Nat} {entry : SchedulerNodeEntry}
    (hpart : (invocation.branchPath.getD [])[index]? = some part)
    (hentry : nodes.get? part.nodeId = some entry)
    (hmaximum : configuredParallelMaxConcurrency entry.node = some maximum) :
    exists limit, limit ∈ limits ∧ IsCapAt nodes invocation index limit := by
  unfold parallelLimits at h
  rcases exists_of_bind_eq_ok h with ⟨lists, hlists, hlimits⟩
  cases hlimits
  have hmem : (part, index) ∈ (invocation.branchPath.getD []).zipIdx :=
    List.mem_zipIdx_iff_getElem?.mpr hpart
  rcases exists_of_mem_of_mapM hlists hmem with ⟨found, hfound, hread⟩
  rcases parallelLimit_cases hpart hread with ⟨_, hunset⟩ | ⟨limit, rfl, hcap⟩
  · rw [hunset entry hentry] at hmaximum
    cases hmaximum
  · exact ⟨limit, List.mem_flatten.mpr ⟨_, hfound, List.mem_singleton_self limit⟩, hcap⟩

theorem IsCapAt.limit_eq {index : Nat} {limit : ParallelLimit}
    (h : IsCapAt nodes invocation index limit) :
    limit.limit = capLimit nodes limit.constraint := by
  rcases h.part with ⟨part, entry, _, hentry, hlimit, hnode, _⟩
  rw [capLimit, hnode, hentry]
  show limit.limit = (configuredParallelMaxConcurrency entry.node).getD 0
  rw [hlimit]
  rfl

theorem IsCapAt.length {index : Nat} {limit : ParallelLimit}
    (h : IsCapAt nodes invocation index limit) :
    limit.constraint.branchPrefix.length = index := by
  rcases h.part with ⟨_, _, hpart, _⟩
  rw [h.branchPrefix, List.length_take]
  exact Nat.min_eq_left (List.getElem?_eq_some_iff.mp hpart).choose.le

/-- An invocation counts once against a cap, since its caps lie at different depths. -/
theorem nodup_capsOf : (capsOf nodes invocation).Nodup := by
  cases h : parallelLimits nodes invocation with
  | error e =>
      rw [capsOf, h]
      exact List.nodup_nil
  | ok limits =>
      rw [capsOf_eq h]
      unfold parallelLimits at h
      rcases exists_of_bind_eq_ok h with ⟨lists, hlists, hlimits⟩
      cases hlimits
      apply List.Nodup.of_map fun cap : ParallelConstraint => cap.branchPrefix.length
      rw [List.map_map]
      have hdepths : forall (parts : List (BranchScopePart × Nat))
          (lists : List (List ParallelLimit)),
          List.Forall₂ (fun part found => parallelLimit nodes invocation part = Except.ok found)
            parts lists ->
          (forall part, part ∈ parts ->
            (invocation.branchPath.getD [])[part.snd]? = some part.fst) ->
          (lists.flatten.map fun limit => limit.constraint.branchPrefix.length).Sublist
            (parts.map Prod.snd) := by
        intro parts lists hall
        induction hall with
        | nil => exact fun _ => List.Sublist.refl _
        | @cons part found rest others hread _ ih =>
            intro hparts
            have hrest := ih fun other hother => hparts other (List.mem_cons_of_mem _ hother)
            have hpart := hparts part (List.mem_cons_self ..)
            rw [List.flatten_cons, List.map_append, List.map_cons]
            rcases parallelLimit_cases hpart hread with ⟨rfl, _⟩ | ⟨limit, rfl, hcap⟩
            · exact hrest.cons part.snd
            · rw [List.map_singleton, hcap.length]
              exact hrest.cons_cons part.snd
      have hsublist := hdepths _ _ (mapM_eq_ok_iff.mp hlists) fun part hpart => by
        rw [← List.mem_zipIdx_iff_getElem?]
        exact hpart
      apply hsublist.nodup
      rw [List.zipIdx_map_snd]
      exact List.nodup_range'

end

/-!
## Caps and the loops around a Parallel step
-/

theorem mem_executionNodes_of_ancestorsOf {nodeId : String} {loops : List String}
    (h : ancestorsOf executable.graph nodeId = some loops) :
    exists node, node ∈ executionNodes executable ∧ node.record.id = nodeId := by
  by_contra habsent
  have hnone : findNodeContextInList nodeId executable.graph [] executable.graph.nodes = none := by
    apply findNodeContextInList_eq_none
    intro hmem
    rcases List.mem_map.mp hmem with ⟨node, hnode, hid⟩
    exact habsent ⟨node, hnode, hid⟩
  rw [ancestorsOf, findExecutableNodeContext, hnone] at h
  cases h

theorem containingIterationPrefix_spec {nodeId : String} {containingLoopId : Option String}
    {loops : List String} {path iterationPrefix : IterationPath}
    (hpath : ancestorsOf executable.graph nodeId = some (path.map IterationScopePart.loopNodeId))
    (hcontaining : IsContaining executable containingLoopId loops)
    (h : containingIterationPrefix containingLoopId path = Except.ok iterationPrefix) :
    iterationPrefix <+: path ∧ iterationPrefix.map IterationScopePart.loopNodeId = loops := by
  cases containingLoopId with
  | none =>
      cases h
      exact ⟨List.nil_prefix, hcontaining.symm⟩
  | some loopId =>
      unfold containingIterationPrefix at h
      dsimp only at h
      split at h
      · exact absurd h fail_ne_ok
      · next index hindex =>
        cases h
        refine ⟨List.take_prefix _ _, ?_⟩
        rcases hcontaining with ⟨outer, rfl, houter⟩
        rcases List.findIdx?_eq_some_iff_getElem.mp hindex with ⟨hlt, hloop, _⟩
        rcases mem_executionNodes_of_ancestorsOf hpath with ⟨node, hnode, hid⟩
        rw [← hid] at hpath
        have hsplit : path.map IterationScopePart.loopNodeId =
            (path.take index).map IterationScopePart.loopNodeId ++
              loopId :: (path.drop (index + 1)).map IterationScopePart.loopNodeId := by
          rw [← eq_of_beq hloop, ← List.map_cons, ← List.map_append,
            ← List.drop_eq_getElem_cons hlt, List.take_append_drop]
        have hown := ancestorsOf_ancestor hnode hpath _ _ _ hsplit
        rw [houter, Option.some.injEq] at hown
        rw [hown, List.take_succ_eq_append_getElem hlt, List.map_append, List.map_singleton,
          eq_of_beq hloop]

theorem eq_of_prefix_of_map {left right path : IterationPath} (hleft : left <+: path)
    (hright : right <+: path)
    (hloops : left.map IterationScopePart.loopNodeId =
      right.map IterationScopePart.loopNodeId) : left = right := by
  have hlength : left.length = right.length := by
    rw [← List.length_map IterationScopePart.loopNodeId, hloops, List.length_map]
  exact (List.prefix_of_prefix_length_le hleft hright hlength.le).eq_of_length hlength

theorem mem_capsOf_iff {workflowVersionId : String} {invocation : InvocationState}
    {limits : List ParallelLimit}
    (haddress : IsAddress executable workflowVersionId invocation.scope)
    (h : parallelLimits (indexTransitionNodes (schedulerState executable)) invocation =
      Except.ok limits) {cap : ParallelConstraint} :
    cap ∈ capsOf (indexTransitionNodes (schedulerState executable)) invocation ↔
      isInsideParallel executable cap invocation = true ∧
        exists entry maximum,
          (indexTransitionNodes (schedulerState executable)).get? cap.nodeId = some entry ∧
            configuredParallelMaxConcurrency entry.node = some maximum := by
  have hpath : ancestorsOf executable.graph invocation.nodeId =
      some ((invocation.iterationPath.getD []).map IterationScopePart.loopNodeId) :=
    haddress.ancestors
  rw [capsOf_eq h, isInsideParallel, Bool.and_eq_true, Bool.and_eq_true, Bool.and_eq_true,
    beq_iff_eq, beq_iff_eq, List.isPrefixOf_iff_prefix, Option.any_eq_true]
  constructor
  · intro hmem
    rcases List.mem_map.mp hmem with ⟨limit, hlimit, rfl⟩
    rcases isCapAt_of_mem h hlimit with ⟨index, hcap⟩
    have hlength := hcap.length
    rcases hcap.part with ⟨part, entry, hpart, hentry, hmaximum, hnode, hbefore⟩
    rw [← hnode] at hentry
    rcases schedulerEntry_containing hentry with ⟨loops, hloops, hcontaining⟩
    rcases containingIterationPrefix_spec hpath hcontaining hbefore with ⟨hinside, rfl⟩
    refine ⟨⟨⟨⟨?_, part, ?_, ?_⟩, hinside⟩, hloops⟩, entry, limit.limit, hentry, hmaximum⟩
    · rw [hlength]
      exact hcap.branchPrefix.symm
    · rw [hlength]
      exact hpart
    · exact beq_iff_eq.mpr hnode.symm
  · rintro ⟨⟨⟨⟨hbranch, part, hpart, hnode⟩, hinside⟩, hloops⟩, entry, maximum, hentry, hmaximum⟩
    have hsame : part.nodeId = cap.nodeId := eq_of_beq hnode
    rw [← hsame] at hentry
    rcases exists_cap_of_part h hpart hentry hmaximum with ⟨limit, hlimit, hcap⟩
    refine List.mem_map.mpr ⟨limit, hlimit, ?_⟩
    have hbefore : limit.constraint.branchPrefix = cap.branchPrefix :=
      hcap.branchPrefix.trans hbranch
    rcases hcap.part with ⟨part', entry', hpart', hentry', _, hnode', hread⟩
    cases hpart.symm.trans hpart'
    cases hentry.symm.trans hentry'
    rcases schedulerEntry_containing hentry with ⟨loops, hown, hcontaining⟩
    rcases containingIterationPrefix_spec hpath hcontaining hread with ⟨hfound, rfl⟩
    rw [hsame, hloops, Option.some.injEq] at hown
    have hiteration := eq_of_prefix_of_map hfound hinside hown.symm
    rcases cap with ⟨capNode, capBranch, capIteration⟩
    rcases limit with ⟨⟨limitNode, limitBranch, limitIteration⟩, maximum'⟩
    dsimp only at hbefore hiteration hnode' hsame ⊢
    rw [hbefore, hiteration, hnode', hsame]

end Engine
end Pertexo
