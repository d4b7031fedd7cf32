import Pertexo.Engine.QuietPasses
import Pertexo.Engine.ReadinessScopes

/-!
# Passes that start steps

## Starting a step
-/

namespace Pertexo
namespace Engine

open Library
open Values

variable {executable : CompiledWorkflowExecutable} {ledger : Ledger}

/-- Nothing is removed from the records of the state, its invocations progress, and a
new invocation has no attempt yet. -/
structure Extends (before after : WorkflowTransition) : Prop where
  scopes : before.scopes ⊆ after.scopes
  progress : KeepsInvocations Progresses before after
  born : forall invocation, invocation ∈ after.invocations ->
    invocation.scope ∈ before.scopes ∨ invocation.attemptNumber = 0
  current : after.current = before.current
  run : RunChanges before.runStatus after.runStatus

theorem Extends.refl (state : WorkflowTransition) : Extends state state where
  scopes := Set.Subset.refl _
  progress := KeepsInvocations.of_subset Progresses.refl fun _ h => h
  born := fun _ hmem => Or.inl (mem_scopesOf hmem)
  current := rfl
  run := Relation.ReflTransGen.refl

theorem KeepsInvocations.of_scope {R : InvocationState -> InvocationState -> Prop}
    {before after : WorkflowTransition} (h : KeepsInvocations R before after)
    (hkey : forall a b, R a b -> b.invocationKey = a.invocationKey)
    {invocation : InvocationState} (hmem : invocation ∈ after.invocations)
    (hscope : invocation.scope ∈ before.scopes) :
    exists origin, origin ∈ before.invocations ∧ origin.scope = invocation.scope ∧
      R origin invocation := by
  rcases hscope with ⟨origin, horigin, hsame⟩
  rcases h origin horigin with ⟨kept, hkept, hrelated⟩
  have hkeys : kept.invocationKey = invocation.invocationKey := by
    rw [hkey _ _ hrelated]
    exact congrArg StepScope.key hsame
  have heq : kept = invocation := Keyed.eq_of_mem_of_key_eq hkept hmem hkeys
  exact ⟨origin, horigin, hsame, heq ▸ hrelated⟩

theorem Extends.trans {first second third : WorkflowTransition} (h : Extends first second)
    (h' : Extends second third) : Extends first third where
  scopes := h.scopes.trans h'.scopes
  progress :=
    KeepsInvocations.trans Progresses (fun _ _ _ => Progresses.trans) h.progress h'.progress
  born := by
    intro invocation hmem
    rcases h'.born invocation hmem with hscope | hzero
    · rcases h'.progress.of_scope (fun _ _ => Progresses.key) hmem hscope with
        ⟨origin, horigin, hsame, hprogress⟩
      rcases h.born origin horigin with hfirst | hzero
      · exact Or.inl (hsame ▸ hfirst)
      · exact Or.inr (hprogress.attempt.trans hzero)
    · exact Or.inr hzero
  current := h'.current.trans h.current
  run := h.run.trans h'.run

theorem Quiet.extends {before after : WorkflowTransition} (h : Quiet before after) :
    Extends before after where
  scopes := h.scopes ▸ Set.Subset.refl _
  progress := h.progress
  born := fun _ hmem => Or.inl (h.scopes ▸ mem_scopesOf hmem)
  current := h.current
  run := h.run

theorem Extends.of_eq {before after : WorkflowTransition}
    (hinvocations : after.invocations = before.invocations)
    (hcurrent : after.current = before.current) (hrun : after.runStatus = before.runStatus) :
    Extends before after where
  scopes := by
    rw [WorkflowTransition.scopes, WorkflowTransition.scopes, hinvocations]
  progress := by
    apply KeepsInvocations.of_subset Progresses.refl
    intro invocation hmem
    rw [hinvocations]
    exact hmem
  born := by
    intro invocation hmem
    rw [hinvocations] at hmem
    exact Or.inl (mem_scopesOf hmem)
  current := hcurrent
  run := hrun ▸ Relation.ReflTransGen.refl

/-- The step may start in the scope: the scope is open, and the step is not in it yet. -/
structure CanStart (executable : CompiledWorkflowExecutable) (state : WorkflowTransition)
    (nodeId : String) (branch : BranchPath) (path : IterationPath) : Prop where
  ancestors : ancestorsOf executable.graph nodeId =
    some (path.map IterationScopePart.loopNodeId)
  isOpen : IsOpen iterationPart state.scopes state.windows branch path
  fresh : forall scope, scope ∈ state.scopes -> scope.node = nodeId -> scope.path ≠ path

theorem scopes_materialize {state : WorkflowTransition} {invocation : InvocationState}
    (hfresh : forall other, other ∈ state.invocations ->
      other.invocationKey ≠ invocation.invocationKey) :
    (state.materialize invocation).scopes = insert invocation.scope state.scopes := by
  ext scope
  constructor
  · rintro ⟨other, hother, rfl⟩
    rcases Keyed.mem_set.mp hother with rfl | ⟨hold, _⟩
    · exact Set.mem_insert ..
    · exact Set.mem_insert_of_mem _ ⟨other, hold, rfl⟩
  · intro hscope
    rcases Set.mem_insert_iff.mp hscope with rfl | ⟨other, hother, rfl⟩
    · exact ⟨invocation, Keyed.mem_set.mpr (Or.inl rfl), rfl⟩
    · exact ⟨other, Keyed.mem_set.mpr (Or.inr ⟨hother, hfresh other hother⟩), rfl⟩

theorem extends_materialize {state : WorkflowTransition} {invocation : InvocationState}
    (hzero : invocation.attemptNumber = 0)
    (hfresh : forall other, other ∈ state.invocations ->
      other.invocationKey ≠ invocation.invocationKey) :
    Extends state (state.materialize invocation) where
  scopes := by
    rw [scopes_materialize hfresh]
    exact Set.subset_insert ..
  progress := by
    apply KeepsInvocations.of_subset Progresses.refl
    intro other hother
    exact Keyed.mem_set.mpr (Or.inr ⟨hother, hfresh other hother⟩)
  born := by
    intro other hother
    rcases Keyed.mem_set.mp hother with rfl | ⟨hold, _⟩
    · exact Or.inr hzero
    · exact Or.inl (mem_scopesOf hold)
  current := rfl
  run := Relation.ReflTransGen.refl

theorem ScheduledState.materialize {state : WorkflowTransition} {invocation : InvocationState}
    (h : ScheduledState executable ledger state)
    (haddress : IsAddress executable state.current.workflowVersionId invocation.scope)
    (hopen : IsOpen iterationPart state.scopes state.windows invocation.scope.branch
      invocation.scope.path)
    (hkey : forall other, other ∈ state.invocations ->
      other.invocationKey ≠ invocation.invocationKey)
    (hfresh : ¬ IsMergeStep executable invocation.nodeId ->
      forall scope, scope ∈ state.scopes -> scope.node = invocation.nodeId ->
        scope.path ≠ invocation.scope.path) :
    ScheduledState executable ledger (state.materialize invocation) where
  records :=
    { nested := by
        have hscopes := scopes_materialize hkey
        rw [WorkflowTransition.scopes] at hscopes
        rw [hscopes]
        exact h.records.nested.start hopen hfresh
      addressed := by
        have hscopes := scopes_materialize hkey
        rw [WorkflowTransition.scopes] at hscopes
        rw [hscopes]
        intro scope hscope
        rcases Set.mem_insert_iff.mp hscope with rfl | hold
        · exact haddress
        · exact h.records.addressed scope hold
      recorded := by
        have hscopes := scopes_materialize hkey
        rw [WorkflowTransition.scopes] at hscopes
        rw [hscopes]
        exact h.records.recorded.start iterationPart_injective h.records.nested hopen
      fits := h.records.fits }
  graph := h.graph

structure IsStart (executable : CompiledWorkflowExecutable) (state : WorkflowTransition)
    (invocation : InvocationState) : Prop where
  key : invocation.invocationKey =
    rawInvocationKey state.current.workflowVersionId invocation.nodeId
      (encodedBranchPath invocation.scope.branch) invocation.scope.path
  canStart : CanStart executable state invocation.nodeId invocation.scope.branch
    invocation.scope.path
  unattempted : invocation.attemptNumber = 0

theorem IsStart.address {state : WorkflowTransition} {invocation : InvocationState}
    (h : IsStart executable state invocation) :
    IsAddress executable state.current.workflowVersionId invocation.scope :=
  ⟨h.key, h.canStart.ancestors⟩

theorem IsStart.key_fresh {state : WorkflowTransition} {invocation : InvocationState}
    (hstate : ScheduledState executable ledger state) (h : IsStart executable state invocation) :
    forall other, other ∈ state.invocations ->
      other.invocationKey ≠ invocation.invocationKey := by
  intro other hother hkey
  have haddress := hstate.records.addressed other.scope (mem_scopesOf hother)
  rcases haddress.eq_of_key_eq h.address hkey with ⟨hnode, hpath⟩
  exact h.canStart.fresh other.scope (mem_scopesOf hother) hnode hpath

theorem ScheduledState.start {state : WorkflowTransition} {invocation : InvocationState}
    (hstate : ScheduledState executable ledger state) (h : IsStart executable state invocation)
    (occurredAt : Timestamp) :
    ScheduledState executable ledger (materializeWithEvent state invocation occurredAt) ∧
      Extends state (materializeWithEvent state invocation occurredAt) := by
  have hkey := h.key_fresh hstate
  have hdraft := Quiet.addDraft (state.materialize invocation)
    (transitionEvent (decisionEvent invocation.status) occurredAt (some invocation))
  constructor
  · apply ScheduledState.of_sameScopes _ hdraft.toSameScopes
    exact hstate.materialize h.address h.canStart.isOpen hkey fun _ => h.canStart.fresh
  · exact (extends_materialize h.unattempted hkey).trans hdraft.extends

theorem isOpen_mono {scopes wider : Set InvocationScope} {windows : Set LoopScope}
    {branch : BranchPath} {path : IterationPath} (hsubset : scopes ⊆ wider)
    (h : IsOpen iterationPart scopes windows branch path) :
    IsOpen iterationPart wider windows branch path := by
  rcases h with hroot | ⟨scope, hscope, hrest⟩ | hactive
  · exact Or.inl hroot
  · exact Or.inr (Or.inl ⟨scope, hsubset hscope, hrest⟩)
  · exact Or.inr (Or.inr hactive)

theorem CanStart.after {state : WorkflowTransition} {invocation : InvocationState}
    {nodeId : String} {branch : BranchPath} {path : IterationPath}
    (hstate : ScheduledState executable ledger state) (hstart : IsStart executable state invocation)
    (occurredAt : Timestamp) (h : CanStart executable state nodeId branch path)
    (hother : invocation.nodeId = nodeId -> invocation.scope.path ≠ path) :
    CanStart executable (materializeWithEvent state invocation occurredAt) nodeId branch path where
  ancestors := h.ancestors
  isOpen := isOpen_mono (hstate.start hstart occurredAt).right.scopes h.isOpen
  fresh := by
    intro scope hscope hnode
    have hscopes : (materializeWithEvent state invocation occurredAt).scopes =
        insert invocation.scope state.scopes :=
      scopes_materialize (hstart.key_fresh hstate)
    rw [hscopes] at hscope
    rcases Set.mem_insert_iff.mp hscope with rfl | hold
    · exact hother hnode
    · exact h.fresh scope hold hnode

/-- Starts of different steps, or in different iterations, can all be carried out. -/
theorem scheduled_foldl_start {α : Type} (invocationOf : α -> InvocationState)
    (step : WorkflowTransition -> α -> WorkflowTransition) (occurredAt : Timestamp)
    (hstep : forall state item, step state item = state ∨
      step state item = materializeWithEvent state (invocationOf item) occurredAt)
    {items : List α}
    (hdistinct : items.Pairwise fun left right =>
      (invocationOf left).nodeId ≠ (invocationOf right).nodeId)
    {state : WorkflowTransition} (hstate : ScheduledState executable ledger state)
    (hstarts : forall item, item ∈ items -> IsStart executable state (invocationOf item)) :
    ScheduledState executable ledger (items.foldl step state) ∧
      Extends state (items.foldl step state) ∧
      (items.foldl step state).loops = state.loops := by
  induction items generalizing state with
  | nil => exact ⟨hstate, Extends.refl state, rfl⟩
  | cons item rest ih =>
      rw [List.pairwise_cons] at hdistinct
      have hitem := hstarts item (List.mem_cons_self ..)
      have hrest : forall other, other ∈ rest ->
          IsStart executable state (invocationOf other) := by
        intro other hother
        exact hstarts other (List.mem_cons_of_mem _ hother)
      rw [List.foldl_cons]
      rcases hstep state item with hsame | hstarted
      · rw [hsame]
        exact ih hdistinct.right hstate hrest
      · rw [hstarted]
        rcases hstate.start hitem occurredAt with ⟨hnext, hextends⟩
        have hstarts' : forall other, other ∈ rest -> IsStart executable
            (materializeWithEvent state (invocationOf item) occurredAt) (invocationOf other) := by
          intro other hother
          refine ⟨(hrest other hother).key, ?_, (hrest other hother).unattempted⟩
          apply CanStart.after hstate hitem occurredAt (hrest other hother).canStart
          intro hsameNode
          exact absurd hsameNode (hdistinct.left other hother)
        rcases ih hdistinct.right hnext hstarts' with ⟨hfinal, hextends', hloops⟩
        exact ⟨hfinal, hextends.trans hextends', hloops⟩

/-!
## Ready steps of the root graph
-/

theorem mem_level_of_scheduler {record : NodeRecord}
    (h : record ∈ (schedulerState executable).level.nodes) :
    exists node, node ∈ executable.graph.nodes ∧ node.record = record :=
  List.mem_map.mp h

theorem isStart_rootInvocation {state : WorkflowTransition} {decision : ReadyNodeDecision}
    (hstate : ScheduledState executable ledger state)
    (h : IsReadyDecision (rootReadinessInput state) decision) :
    IsStart executable state (rootInvocation decision) where
  key := h.key
  unattempted := rfl
  canStart :=
    { ancestors := by
        rcases h.onLevel with ⟨record, hrecord, hid⟩
        have hlevel : record ∈ (schedulerState executable).level.nodes := by
          rw [← hstate.graph]
          exact hrecord
        rcases mem_level_of_scheduler hlevel with ⟨node, hnode, rfl⟩
        show ancestorsOf executable.graph decision.nodeId = some []
        rw [← hid]
        exact ancestorsOf_root hnode
      isOpen := Or.inl rfl
      fresh := by
        rintro _ ⟨invocation, hmem, rfl⟩ hnode hpath
        apply h.fresh invocation hmem _ hnode
        rw [matchesSchedulerScope, Bool.and_eq_true, sameIterationPath_iff,
          branchPathHasPrefix_iff]
        exact ⟨hpath, List.nil_prefix⟩ }

theorem nodup_rootLevel :
    ((schedulerState executable).level.nodes.map NodeRecord.id).Nodup := by
  have hids := nodup_nodeIdsOf executable.node_ids_nodup
  simpa [schedulerState, projectSchedulerState, nodeIdsOf, Function.comp_def] using hids

theorem scheduled_deriveRootReadiness {state after : WorkflowTransition}
    {coordinatorNodeIds : List String} {occurredAt : Timestamp}
    (hstate : ScheduledState executable ledger state)
    (h : deriveRootReadiness state coordinatorNodeIds occurredAt = Except.ok after) :
    ScheduledState executable ledger after ∧ Extends state after := by
  unfold deriveRootReadiness at h
  split at h
  · cases h
    exact ⟨hstate, Extends.refl state⟩
  · rcases exists_of_bind_eq_ok h with ⟨decisions, hdecisions, h⟩
    cases h
    have hnodup : (decisions.map ReadyNodeDecision.nodeId).Nodup := by
      apply map_nodeId_deriveReadyNodes hdecisions
      show (state.graph.level.nodes.map NodeRecord.id).Nodup
      rw [hstate.graph]
      exact nodup_rootLevel
    have hfold := scheduled_foldl_start rootInvocation
      (materializeRootDecision coordinatorNodeIds occurredAt) occurredAt
      (by
        intro state decision
        unfold materializeRootDecision
        split
        · exact Or.inl rfl
        · exact Or.inr rfl)
      (List.pairwise_map.mp hnodup) hstate
      (fun decision hdecision =>
        isStart_rootInvocation hstate (deriveReadyNodes_spec hdecisions decision hdecision))
    exact ⟨hfold.left, hfold.right.left⟩

/-!
## Ready steps of loop bodies
-/

theorem ancestorsOf_loop {state : WorkflowTransition} {loop : LoopState}
    (hstate : ScheduledState executable ledger state) (hloop : loop ∈ state.loops) :
    ancestorsOf executable.graph loop.loopId =
      some (loop.iterationPath.map IterationScopePart.loopNodeId) := by
  rcases hstate.records.nested.owned loop.window (mem_windowsOf hloop) with
    ⟨scope, hscope, _, hnode, _, hpath⟩
  have hancestors := (hstate.records.addressed scope hscope).ancestors
  rw [hnode, hpath] at hancestors
  exact hancestors

theorem ancestorsOf_bodyStep {state : WorkflowTransition} {loop : LoopState}
    {body : List ExecutableNode} {node : ExecutableNode} {ordinal : Nat}
    (hstate : ScheduledState executable ledger state) (hloop : loop ∈ state.loops)
    (hbody : IsLoopBody (executionNodes executable) loop.loopId body) (hnode : node ∈ body) :
    ancestorsOf executable.graph node.record.id =
      some ((loop.iterationScope ordinal).map IterationScopePart.loopNodeId) := by
  rw [ancestorsOf_body hbody hnode (ancestorsOf_loop hstate hloop)]
  simp [LoopState.iterationScope]

theorem branch_of_iteration {state : WorkflowTransition} {loop : LoopState} {ordinal : Nat}
    {scope : InvocationScope} (hstate : ScheduledState executable ledger state)
    (hloop : loop ∈ state.loops) (hscope : scope ∈ state.scopes)
    (hpath : scope.path = loop.iterationScope ordinal) :
    loop.branchPath <+: scope.branch ∧ ordinal < loop.nextOrdinal := by
  apply hstate.records.nested.branch_of_iteration iterationPart_injective hscope
    (mem_windowsOf hloop)
  have hiteration : loop.window.iteration iterationPart ordinal = scope.path := by
    rw [LoopState.window_iteration, hpath]
  exact hiteration ▸ List.prefix_refl _

theorem loopBody_of_structuredBodyOf {loopId : String} {body : StructuredBody}
    (h : structuredBodyOf (schedulerState executable) loopId = some body) :
    exists nodes, IsLoopBody (executionNodes executable) loopId nodes ∧
      body.level.nodes = nodes.map ExecutableNode.record := by
  have hmem : body ∈ structuredBodiesOfList executable.graph.nodes :=
    List.mem_of_find?_eq_some h
  have hid : body.loopNodeId = loopId := by
    simpa using List.find?_some h
  rw [← hid]
  exact isLoopBody_of_structuredBodyList executable.graph.nodes hmem

theorem isStart_bodyInvocation {state : WorkflowTransition} {body : StructuredBody}
    {loop : LoopState} {ordinal : Nat} {decision : ReadyNodeDecision}
    (hstate : ScheduledState executable ledger state) (hloop : loop ∈ state.loops)
    (hordinal : ordinal ∈ loop.activeOrdinals)
    (hbody : structuredBodyOf state.graph loop.loopId = some body)
    (h : IsReadyDecision (bodyReadinessInput state body loop ordinal) decision) :
    IsStart executable state (bodyInvocation loop ordinal decision) := by
  have hbranch : loop.branchPath <+: decision.branchPath.getD [] := h.branch
  have hscope : (bodyInvocation loop ordinal decision).scope.branch =
      decision.branchPath.getD [] := by
    cases hpath : decision.branchPath with
    | some path => simp [bodyInvocation, InvocationState.scope, hpath]
    | none =>
        rw [hpath] at hbranch
        have hnil : loop.branchPath = [] := List.prefix_nil.mp hbranch
        simp [bodyInvocation, InvocationState.scope, hpath, hnil]
  refine ⟨?_, ⟨?_, ?_, ?_⟩, rfl⟩
  · rw [hscope]
    exact h.key
  · rw [hstate.graph] at hbody
    rcases loopBody_of_structuredBodyOf hbody with ⟨nodes, hnodes, hlevel⟩
    rcases h.onLevel with ⟨record, hrecord, hid⟩
    have hmem : record ∈ nodes.map ExecutableNode.record := by
      rw [← hlevel]
      exact hrecord
    rcases List.mem_map.mp hmem with ⟨node, hnode, rfl⟩
    show ancestorsOf executable.graph decision.nodeId = _
    rw [← hid]
    exact ancestorsOf_bodyStep hstate hloop hnodes hnode
  · rw [hscope]
    exact Or.inr (Or.inr ⟨loop.window, mem_windowsOf hloop, hbranch, ordinal, hordinal, rfl⟩)
  · rintro _ ⟨invocation, hmem, rfl⟩ hnode hpath
    apply h.fresh invocation hmem _ hnode
    rw [matchesSchedulerScope, Bool.and_eq_true, sameIterationPath_iff, branchPathHasPrefix_iff]
    exact ⟨hpath, (branch_of_iteration hstate hloop (mem_scopesOf hmem) hpath).left⟩

theorem nodup_bodyLevel {loopId : String} {body : StructuredBody}
    (h : structuredBodyOf (schedulerState executable) loopId = some body) :
    (body.level.nodes.map NodeRecord.id).Nodup := by
  rcases loopBody_of_structuredBodyOf h with ⟨nodes, hnodes, hlevel⟩
  have hids := nodup_nodeIdsOf
    (nodup_loopBodyList executable.graph.nodes executable.node_ids_nodup hnodes)
  rw [hlevel]
  simpa [nodeIdsOf, Function.comp_def] using hids

theorem scheduled_deriveIterationReadiness {state after : WorkflowTransition}
    {body : StructuredBody} {loop : LoopState} {ordinal : Nat} {occurredAt : Timestamp}
    (hstate : ScheduledState executable ledger state) (hloop : loop ∈ state.loops)
    (hordinal : ordinal ∈ loop.activeOrdinals)
    (hbody : structuredBodyOf state.graph loop.loopId = some body)
    (h : deriveIterationReadiness body loop occurredAt state ordinal = Except.ok after) :
    ScheduledState executable ledger after ∧ Extends state after ∧ after.loops = state.loops := by
  unfold deriveIterationReadiness at h
  rcases exists_of_bind_eq_ok h with ⟨decisions, hdecisions, h⟩
  cases h
  have hnodup : (decisions.map ReadyNodeDecision.nodeId).Nodup := by
    apply map_nodeId_deriveReadyNodes hdecisions
    rw [hstate.graph] at hbody
    exact nodup_bodyLevel hbody
  exact scheduled_foldl_start (bodyInvocation loop ordinal) _ occurredAt
    (fun _ _ => Or.inr rfl) (List.pairwise_map.mp hnodup) hstate
    (fun decision hdecision => isStart_bodyInvocation hstate hloop hordinal hbody
      (deriveReadyNodes_spec hdecisions decision hdecision))

theorem scheduled_deriveBodyReadiness {state after : WorkflowTransition} {loop : LoopState}
    {occurredAt : Timestamp} (hstate : ScheduledState executable ledger state)
    (hloop : loop ∈ state.loops)
    (h : deriveBodyReadiness occurredAt state loop = Except.ok after) :
    ScheduledState executable ledger after ∧ Extends state after ∧ after.loops = state.loops := by
  unfold deriveBodyReadiness at h
  split at h
  · exact absurd h fail_ne_ok
  · rename_i body hbody
    have hgraph : structuredBodyOf (schedulerState executable) loop.loopId = some body := by
      rw [← hstate.graph]
      exact hbody
    apply foldlM_invariant
      (fun current => ScheduledState executable ledger current ∧ Extends state current ∧
        current.loops = state.loops)
      ⟨hstate, Extends.refl state, rfl⟩ _ h
    rintro ordinal hordinal current next ⟨hcurrent, hextends, hloops⟩ hnext
    rcases scheduled_deriveIterationReadiness hcurrent (hloops ▸ hloop) hordinal
      (hcurrent.graph ▸ hgraph) hnext with ⟨hscheduled, hextends', hloops'⟩
    exact ⟨hscheduled, hextends.trans hextends', hloops'.trans hloops⟩

theorem scheduled_deriveLoopBodyReadiness {state after : WorkflowTransition}
    {occurredAt : Timestamp} (hstate : ScheduledState executable ledger state)
    (h : deriveLoopBodyReadiness state occurredAt = Except.ok after) :
    ScheduledState executable ledger after ∧ Extends state after := by
  unfold deriveLoopBodyReadiness at h
  split at h
  · cases h
    exact ⟨hstate, Extends.refl state⟩
  · have hfold := foldlM_invariant
      (fun current => ScheduledState executable ledger current ∧ Extends state current ∧
        current.loops = state.loops)
      ⟨hstate, Extends.refl state, rfl⟩
      (by
        rintro loop hloop current next ⟨hcurrent, hextends, hloops⟩ hnext
        have hmem : loop ∈ current.loops := by
          rw [hloops]
          exact hloop
        rcases scheduled_deriveBodyReadiness hcurrent hmem hnext with
          ⟨hscheduled, hextends', hloops'⟩
        exact ⟨hscheduled, hextends.trans hextends', hloops'.trans hloops⟩) h
    exact ⟨hfold.left, hfold.right.left⟩

end Engine
end Pertexo
