import Pertexo.Engine.InvocationKeys
import Pertexo.Engine.Readiness

/-!
# Scopes of ready steps

## Indexed invocations
-/

namespace Pertexo
namespace Engine

open Library
open Values

theorem indexInvocation_spec {workflowVersionId : String}
    {index next : Keyed InvocationState InvocationState.nodeId} {invocation : InvocationState}
    (h : indexInvocation workflowVersionId index invocation = Except.ok next) :
    (next = index.set invocation ∨ (next = index ∧ index.has invocation.nodeId = true)) := by
  unfold indexInvocation at h
  rcases exists_of_bind_eq_ok h with ⟨key, _, h⟩
  dsimp only at h
  split at h
  · cases h
    exact Or.inl rfl
  · rename_i hknown
    cases h
    have hboth : index.has invocation.nodeId = true ∧ ¬ invocation.invocationKey = key := by
      simpa using hknown
    exact Or.inr ⟨rfl, hboth.left⟩

theorem mem_of_indexInvocations {workflowVersionId : String} {invocations : List InvocationState}
    {start finish : Keyed InvocationState InvocationState.nodeId}
    (h : invocations.foldlM (indexInvocation workflowVersionId) start = Except.ok finish)
    {invocation : InvocationState} (hmem : invocation ∈ finish) :
    invocation ∈ start ∨ invocation ∈ invocations := by
  induction invocations generalizing start with
  | nil =>
      rw [List.foldlM_nil, pure_eq_ok_iff] at h
      exact Or.inl (h ▸ hmem)
  | cons head rest ih =>
      rw [List.foldlM_cons] at h
      rcases exists_of_bind_eq_ok h with ⟨next, hnext, hrest⟩
      rcases ih hrest with hold | hnew
      · rcases indexInvocation_spec hnext with rfl | ⟨rfl, _⟩
        · rcases Keyed.mem_set.mp hold with rfl | ⟨hstart, _⟩
          · exact Or.inr (List.mem_cons_self ..)
          · exact Or.inl hstart
        · exact Or.inl hold
      · exact Or.inr (List.mem_cons_of_mem _ hnew)

theorem has_of_indexInvocation {workflowVersionId : String}
    {index next : Keyed InvocationState InvocationState.nodeId} {invocation : InvocationState}
    (h : indexInvocation workflowVersionId index invocation = Except.ok next) :
    next.has invocation.nodeId = true ∧
      forall nodeId, index.has nodeId = true -> next.has nodeId = true := by
  rcases indexInvocation_spec h with rfl | ⟨rfl, hknown⟩
  · constructor
    · exact Keyed.has_iff.mpr ⟨invocation, Keyed.mem_set.mpr (Or.inl rfl), rfl⟩
    · intro nodeId hhas
      rcases Keyed.has_iff.mp hhas with ⟨other, hother, rfl⟩
      by_cases hsame : other.nodeId = invocation.nodeId
      · exact Keyed.has_iff.mpr ⟨invocation, Keyed.mem_set.mpr (Or.inl rfl), hsame.symm⟩
      · exact Keyed.has_iff.mpr ⟨other, Keyed.mem_set.mpr (Or.inr ⟨hother, hsame⟩), rfl⟩
  · exact ⟨hknown, fun _ hhas => hhas⟩

theorem has_of_indexInvocations {workflowVersionId : String} {invocations : List InvocationState}
    {start finish : Keyed InvocationState InvocationState.nodeId}
    (h : invocations.foldlM (indexInvocation workflowVersionId) start = Except.ok finish) :
    (forall nodeId, start.has nodeId = true -> finish.has nodeId = true) ∧
      forall invocation, invocation ∈ invocations -> finish.has invocation.nodeId = true := by
  induction invocations generalizing start with
  | nil =>
      rw [List.foldlM_nil, pure_eq_ok_iff] at h
      rw [h]
      refine ⟨fun _ hhas => hhas, ?_⟩
      intro invocation hmem
      cases hmem
  | cons head rest ih =>
      rw [List.foldlM_cons] at h
      rcases exists_of_bind_eq_ok h with ⟨next, hnext, hrest⟩
      rcases has_of_indexInvocation hnext with ⟨hhead, hkept⟩
      rcases ih hrest with ⟨hkeep, hall⟩
      constructor
      · intro nodeId hhas
        exact hkeep nodeId (hkept nodeId hhas)
      · intro invocation hmem
        rcases List.mem_cons.mp hmem with rfl | htail
        · exact hkeep _ hhead
        · exact hall invocation htail

theorem indexInvocations_spec {input : DeriveReadyNodesInput} {indexes : SchedulerIndexes}
    (h : indexInvocations input = Except.ok indexes) :
    (forall invocation, invocation ∈ indexes.invocationByNode ->
      invocation ∈ input.invocations ∧ matchesSchedulerScope input invocation = true) ∧
    (forall invocation, invocation ∈ input.invocations ->
      matchesSchedulerScope input invocation = true ->
      indexes.invocationByNode.has invocation.nodeId = true) := by
  unfold indexInvocations at h
  rcases exists_of_bind_eq_ok h with ⟨invocationByNode, hindex, h⟩
  cases h
  constructor
  · intro invocation hmem
    rcases mem_of_indexInvocations hindex hmem with hempty | hfiltered
    · exact absurd hempty (Keyed.not_mem_empty invocation)
    · exact List.mem_filter.mp hfiltered
  · intro invocation hmem hmatches
    exact (has_of_indexInvocations hindex).right invocation
      (List.mem_filter.mpr ⟨hmem, hmatches⟩)

/-!
## Branch paths of marks

Every remembered branch path continues the branch path of the scheduled scope.
-/

def MarksUnder (pathPrefix : BranchPath) (marks : SchedulerMarks) : Prop :=
  forall entry, entry ∈ marks.branchPathByNode -> pathPrefix <+: entry.snd

theorem MarksUnder.markSkipped {pathPrefix : BranchPath} {marks : SchedulerMarks}
    (h : MarksUnder pathPrefix marks) (nodeId : String) :
    MarksUnder pathPrefix (Engine.markSkipped marks nodeId) :=
  h

theorem MarksUnder.markBlocked {pathPrefix : BranchPath} {marks : SchedulerMarks}
    (h : MarksUnder pathPrefix marks) (nodeId : String) :
    MarksUnder pathPrefix (Engine.markBlocked marks nodeId) :=
  h

theorem MarksUnder.remember {pathPrefix path : BranchPath} {marks : SchedulerMarks}
    (h : MarksUnder pathPrefix marks) (hpath : pathPrefix <+: path) (nodeId : String) :
    MarksUnder pathPrefix (rememberBranchPath marks nodeId path) := by
  have hset : MarksUnder pathPrefix
      { marks with branchPathByNode := marks.branchPathByNode.set (nodeId, path) } := by
    intro entry hentry
    rcases Keyed.mem_set.mp hentry with rfl | ⟨hold, _⟩
    · exact hpath
    · exact h entry hold
  unfold rememberBranchPath
  split
  · split
    · exact hset
    · exact h
  · exact hset

theorem MarksUnder.foldl {α : Type} {pathPrefix : BranchPath} {items : List α}
    {step : SchedulerMarks -> α -> SchedulerMarks} {marks : SchedulerMarks}
    (h : MarksUnder pathPrefix marks)
    (hstep : forall marks, MarksUnder pathPrefix marks -> forall item, item ∈ items ->
      MarksUnder pathPrefix (step marks item)) :
    MarksUnder pathPrefix (items.foldl step marks) :=
  List.foldlRecOn items step h hstep

theorem MarksUnder.markReachableDescendants {pathPrefix : BranchPath} {level : SchedulerLevel}
    {roots taken : List String} {path : Option BranchPath} {skipped : Bool}
    {marks : SchedulerMarks} (h : MarksUnder pathPrefix marks)
    (hpath : forall branchPath, path = some branchPath -> pathPrefix <+: branchPath) :
    MarksUnder pathPrefix
      (Engine.markReachableDescendants level roots path skipped taken marks) := by
  unfold Engine.markReachableDescendants
  apply h.foldl
  intro marks hmarks nodeId _
  split
  · exact hmarks
  · cases path with
    | none =>
        dsimp only
        split
        · exact (hmarks.markBlocked nodeId).markSkipped nodeId
        · exact hmarks.markBlocked nodeId
    | some branchPath =>
        have hremembered := hmarks.remember (hpath branchPath rfl) nodeId
        dsimp only
        split
        · exact hremembered.markSkipped nodeId
        · exact hremembered

theorem MarksUnder.markConditionalBranch {input : DeriveReadyNodesInput}
    {indexes : SchedulerIndexes} {marks : SchedulerMarks} {node : NodeRecord}
    (hindexes : indexInvocations input = Except.ok indexes)
    (h : MarksUnder (input.branchPath.getD []) marks) :
    MarksUnder (input.branchPath.getD [])
      (Engine.markConditionalBranch input indexes marks node) := by
  unfold Engine.markConditionalBranch
  split
  · rename_i ports invocation hports hget
    have hscope := ((indexInvocations_spec hindexes).left invocation
      (Keyed.mem_of_get? hget)).right
    simp only [matchesSchedulerScope, Bool.and_eq_true, branchPathHasPrefix_iff] at hscope
    split
    · exact h
    · split
      · apply h.markReachableDescendants
        intro branchPath hnone
        cases hnone
      · apply h.foldl
        intro marks hmarks port _
        apply hmarks.markReachableDescendants
        rintro _ ⟨⟩
        exact hscope.right.trans (List.prefix_append ..)
  · exact h

theorem MarksUnder.markFailureRoute {input : DeriveReadyNodesInput}
    {indexes : SchedulerIndexes} {marks : SchedulerMarks} {route : ExecutionFailureRoute}
    (hindexes : indexInvocations input = Except.ok indexes)
    (h : MarksUnder (input.branchPath.getD []) marks) :
    MarksUnder (input.branchPath.getD []) (Engine.markFailureRoute indexes marks route) := by
  unfold Engine.markFailureRoute
  split
  · rename_i source hget
    have hscope := ((indexInvocations_spec hindexes).left source (Keyed.mem_of_get? hget)).right
    simp only [matchesSchedulerScope, Bool.and_eq_true, branchPathHasPrefix_iff] at hscope
    have hskipped : forall marks, MarksUnder (input.branchPath.getD []) marks ->
        forall nodeIds : List String, MarksUnder (input.branchPath.getD [])
          (nodeIds.foldl (markSkippedUnder (source.branchPath.getD [])) marks) := by
      intro marks hmarks nodeIds
      apply hmarks.foldl
      intro marks hmarks nodeId _
      exact (hmarks.markSkipped nodeId).remember hscope.right nodeId
    dsimp only
    split
    · apply (hskipped marks h _).foldl
      intro marks hmarks nodeId _
      unfold markHandler
      apply MarksUnder.remember _ hscope.right
      exact hmarks
    · split
      · exact hskipped marks h _
      · apply h.foldl
        intro marks hmarks nodeId _
        exact hmarks
  · apply h.foldl
    intro marks hmarks nodeId _
    exact hmarks

theorem MarksUnder.markParallelInvocation {input : DeriveReadyNodesInput}
    {marks : SchedulerMarks} {parallel : NodeRecord} {ports : List String}
    {invocation : InvocationState}
    (hscope : input.branchPath.getD [] <+: invocation.branchPath.getD [])
    (h : MarksUnder (input.branchPath.getD []) marks) :
    MarksUnder (input.branchPath.getD [])
      (Engine.markParallelInvocation input parallel ports invocation marks) := by
  -- the base path is that of the invocation, or that of the scope without one
  have hbase : forall skipped : Bool,
      input.branchPath.getD [] <+:
        (invocation.branchPath <|> (if skipped then input.branchPath else none)).getD [] ∧
      forall path, (invocation.branchPath <|> (if skipped then input.branchPath else none)) =
          some path ->
        input.branchPath.getD [] <+: path := by
    intro skipped
    cases hpath : invocation.branchPath with
    | some path =>
        rw [hpath] at hscope
        refine ⟨hscope, ?_⟩
        rintro _ ⟨⟩
        exact hscope
    | none =>
        rw [hpath] at hscope
        cases skipped with
        | false =>
            refine ⟨hscope, ?_⟩
            intro path hnone
            cases hnone
        | true =>
            refine ⟨List.prefix_refl _, ?_⟩
            intro path hsome
            have hinput : input.branchPath = some path := hsome
            rw [hinput]
            exact List.prefix_refl _
  unfold Engine.markParallelInvocation
  dsimp only
  have hmarked : MarksUnder (input.branchPath.getD [])
      (ports.foldl
        (fun marks port =>
          Engine.markReachableDescendants input.level (portTargets input.level parallel.id port)
            (some ((invocation.branchPath <|>
              (if (invocation.status == .skipped) = true then input.branchPath else none)).getD
                [] ++ [{ nodeId := parallel.id, outputPort := port }]))
            (invocation.status == .skipped) [] marks)
        marks) := by
    apply h.foldl
    intro marks hmarks port _
    apply hmarks.markReachableDescendants
    rintro _ ⟨⟩
    exact (hbase _).left.trans (List.prefix_append ..)
  split
  · exact hmarked
  · split
    · exact hmarked
    · apply MarksUnder.markReachableDescendants
      · split
        · rename_i path hpath
          exact (hmarked.markSkipped _).remember ((hbase _).right path hpath) _
        · exact hmarked.markSkipped _
      · exact (hbase _).right

theorem MarksUnder.markParallelBranch {input : DeriveReadyNodesInput}
    {indexes : SchedulerIndexes} {marks : SchedulerMarks} {node : NodeRecord}
    (hindexes : indexInvocations input = Except.ok indexes)
    (h : MarksUnder (input.branchPath.getD []) marks) :
    MarksUnder (input.branchPath.getD [])
      (Engine.markParallelBranch input indexes marks node) := by
  unfold Engine.markParallelBranch
  split
  · rename_i ports invocation hports hget
    have hscope := ((indexInvocations_spec hindexes).left invocation
      (Keyed.mem_of_get? hget)).right
    simp only [matchesSchedulerScope, Bool.and_eq_true, branchPathHasPrefix_iff] at hscope
    split
    · exact h.markParallelInvocation hscope.right
    · exact h
  · exact h

theorem marksUnder_schedulerMarks {input : DeriveReadyNodesInput} {indexes : SchedulerIndexes}
    (hindexes : indexInvocations input = Except.ok indexes) :
    MarksUnder (input.branchPath.getD []) (schedulerMarks input indexes) := by
  have hempty : MarksUnder (input.branchPath.getD []) {} := by
    intro entry hentry
    exact absurd hentry (Keyed.not_mem_empty entry)
  unfold schedulerMarks markConditionalBranches
  apply MarksUnder.foldl
  · apply MarksUnder.foldl
    · apply MarksUnder.foldl hempty
      intro marks hmarks node _
      exact hmarks.markConditionalBranch hindexes
    · intro marks hmarks route _
      exact hmarks.markFailureRoute hindexes
  · intro marks hmarks node _
    exact hmarks.markParallelBranch hindexes

/-!
## Decisions
-/

structure IsReadyDecision (input : DeriveReadyNodesInput) (decision : ReadyNodeDecision) :
    Prop where
  onLevel : exists node, node ∈ input.level.nodes ∧ node.id = decision.nodeId
  key : decision.invocationKey =
    rawInvocationKey input.workflowVersionId decision.nodeId
      (encodedBranchPath (decision.branchPath.getD [])) (input.iterationPath.getD [])
  branch : input.branchPath.getD [] <+: decision.branchPath.getD []
  fresh : forall invocation, invocation ∈ input.invocations ->
    matchesSchedulerScope input invocation = true -> invocation.nodeId ≠ decision.nodeId

theorem readyNodeDecision_spec {input : DeriveReadyNodesInput} {marks : SchedulerMarks}
    {node : NodeRecord} {decision : ReadyNodeDecision}
    (hmarks : MarksUnder (input.branchPath.getD []) marks)
    (h : readyNodeDecision input marks node = Except.ok decision) :
    decision.nodeId = node.id ∧
      decision.invocationKey =
        rawInvocationKey input.workflowVersionId node.id
          (encodedBranchPath (decision.branchPath.getD [])) (input.iterationPath.getD []) ∧
      input.branchPath.getD [] <+: decision.branchPath.getD [] := by
  unfold readyNodeDecision at h
  rcases exists_of_bind_eq_ok h with ⟨key, hkey, h⟩
  cases h
  refine ⟨rfl, rawInvocationKey_of_scopedInvocationKey hkey, ?_⟩
  dsimp only
  cases hremembered : marks.branchPathByNode.get? node.id with
  | none => exact List.prefix_refl _
  | some entry => exact hmarks entry (Keyed.mem_of_get? hremembered)

theorem deriveReadyNodes_spec {input : DeriveReadyNodesInput}
    {decisions : List ReadyNodeDecision}
    (h : deriveReadyNodes input = Except.ok decisions) :
    forall decision, decision ∈ decisions -> IsReadyDecision input decision := by
  unfold deriveReadyNodes at h
  rcases exists_of_bind_eq_ok h with ⟨indexes, hindexes, h⟩
  rcases exists_of_bind_eq_ok h with ⟨_, _, h⟩
  intro decision hdecision
  rcases exists_of_mem_mapM h hdecision with ⟨node, hnode, hready⟩
  rcases List.mem_filter.mp hnode with ⟨hsorted, hisReady⟩
  rcases readyNodeDecision_spec (marksUnder_schedulerMarks hindexes) hready with
    ⟨hid, hkey, hbranch⟩
  refine ⟨⟨node, mem_sortWith.mp hsorted, hid.symm⟩, ?_, hbranch, ?_⟩
  · rw [hid]
    exact hkey
  · intro invocation hmem hmatches hsame
    have hhas := (indexInvocations_spec hindexes).right invocation hmem hmatches
    rw [hsame, hid] at hhas
    rw [isNodeReady, if_pos hhas] at hisReady
    cases hisReady

theorem map_nodeId_deriveReadyNodes {input : DeriveReadyNodesInput}
    {decisions : List ReadyNodeDecision}
    (h : deriveReadyNodes input = Except.ok decisions)
    (hnodup : (input.level.nodes.map NodeRecord.id).Nodup) :
    (decisions.map ReadyNodeDecision.nodeId).Nodup := by
  unfold deriveReadyNodes at h
  rcases exists_of_bind_eq_ok h with ⟨indexes, hindexes, h⟩
  rcases exists_of_bind_eq_ok h with ⟨_, _, h⟩
  have hids : forall (nodes : List NodeRecord) (results : List ReadyNodeDecision),
      List.Forall₂
        (fun node decision =>
          readyNodeDecision input (schedulerMarks input indexes) node = Except.ok decision)
        nodes results ->
      results.map ReadyNodeDecision.nodeId = nodes.map NodeRecord.id := by
    intro nodes results hpairs
    induction hpairs with
    | nil => rfl
    | cons hhead _ ih =>
        rw [List.map_cons, List.map_cons, ih,
          (readyNodeDecision_spec (marksUnder_schedulerMarks hindexes) hhead).left]
  rw [hids _ _ (mapM_eq_ok_iff.mp h)]
  apply (List.filter_sublist.map _).nodup
  exact ((perm_sortWith _ _).map _).nodup_iff.mpr hnodup

end Engine
end Pertexo
