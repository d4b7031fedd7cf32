import Pertexo.Engine.CoordinatedFacts

/-!
# Declarations the coordinator builds

## Loops
-/

namespace Pertexo
namespace Engine

open Library
open Values

variable {executable : CompiledWorkflowExecutable} {ledger : Ledger}

def AllTerminal (outcomes : TerminalOutcomes) : Prop :=
  forall outcome, outcome ∈ outcomes -> isTerminalNodeStatus outcome.status = true

theorem allTerminal_terminalOutcomesForLoop {facts : List PersistedFact} {declared : List String}
    {derivedObservations : List WorkflowObservation} (hfacts : HasTerminalOutcomes facts)
    (hderived : AllPlain derivedObservations) :
    AllTerminal (terminalOutcomesForLoop facts declared derivedObservations) := by
  intro outcome hmem
  rcases List.mem_append.mp (Keyed.mem_of_mem_ofList hmem) with hpersisted | hplain
  · rcases List.mem_filterMap.mp hpersisted with ⟨stored, hstored, hsome⟩
    unfold persistedTerminalOutcome? at hsome
    split at hsome
    · rename_i fact
      split at hsome
      · rename_i attempt status output reasonCode hdetail
        split at hsome
        · cases hsome
        · cases hsome
          exact hfacts fact hstored attempt status output reasonCode hdetail
      · cases hsome
    · cases hsome
  · rcases List.mem_filterMap.mp hplain with ⟨observation, hobservation, hsome⟩
    have hisPlain := hderived observation hobservation
    unfold derivedTerminalOutcome? at hsome
    split at hsome
    · split at hsome
      · cases hsome
      · cases hsome
        exact hisPlain
    · cases hsome

theorem isTerminal_of_iterationTerminalStatus {outcomes : TerminalOutcomes}
    {declared : List String} {invocation : InvocationState} {status : NodeStatus}
    (houtcomes : AllTerminal outcomes)
    (h : iterationTerminalStatus outcomes declared invocation = some status) :
    isTerminalNodeStatus status = true := by
  unfold iterationTerminalStatus at h
  split at h
  · cases h
  · split at h
    · rename_i outcome hget
      cases h
      exact houtcomes outcome (Keyed.mem_of_get? hget)
    · split at h
      · rename_i hterminal
        cases h
        exact hterminal
      · cases h

theorem isTerminal_of_completedLoops {checkpoint : WorkflowCheckpoint}
    {outcomes : TerminalOutcomes} {declared : List String}
    {completions : List LoopIterationCompletedObservation} (houtcomes : AllTerminal outcomes)
    (h : completedLoopObservations checkpoint outcomes declared = Except.ok completions)
    {completion : LoopIterationCompletedObservation} (hmem : completion ∈ completions) :
    isTerminalNodeStatus completion.status = true := by
  unfold completedLoopObservations at h
  rcases exists_of_bind_eq_ok h with ⟨nested, hnested, hdone⟩
  cases hdone
  rcases List.mem_flatten.mp hmem with ⟨iteration, hiteration, hcompletion⟩
  rcases List.mem_flatten.mp hiteration with ⟨iterations, hiterations, hinner⟩
  rcases exists_of_mem_mapM hnested hiterations with ⟨loop, _, hloop⟩
  rcases exists_of_mem_mapM hloop hinner with ⟨ordinal, _, hordinal⟩
  unfold completedIteration at hordinal
  rcases exists_of_bind_eq_ok hordinal with ⟨sink, _, hcompleted⟩
  split at hcompleted
  · cases hcompleted
    cases hcompletion
  · split at hcompleted
    · cases hcompleted
      cases hcompletion
    · rename_i status hstatus
      cases hcompleted
      rw [List.mem_singleton.mp hcompletion]
      exact isTerminal_of_iterationTerminalStatus houtcomes hstatus

theorem key_of_forEachOutputKind {definition : NodeDefinition}
    (h : workflowControlOutputKind definition = some .forEach) :
    definition.key = "core.foreach" := by
  unfold workflowControlOutputKind at h
  split at h
  · cases h
  · split at h
    · cases h
    · split at h
      · cases h
      · split at h
        · rename_i hkey
          exact eq_of_beq hkey
        · split at h
          · cases h
          · cases h

theorem loopStartFits_startedLoop {host : EngineHost} {checkpoint : WorkflowCheckpoint}
    {node : ExecutableNode} {structured : ForEachStructure} {invocation : InvocationState}
    {collection : OutputReference} {items : List JsonValue}
    (hinvocation : invocation ∈ checkpoint.invocations)
    (hnode : (nodesById executable).get? invocation.nodeId = some node)
    (hstructured : forEachStructureOf node = some structured) :
    LoopStartFits executable (scopesOf checkpoint.invocations)
      (startedLoopObservation host node.record structured invocation collection items) := by
  have hid : node.record.id = invocation.nodeId := (Keyed.get?_eq_some_iff.mp hnode).right
  unfold forEachStructureOf at hstructured
  split at hstructured
  · rename_i hkind
    constructor
    · exact ⟨invocation.scope, mem_scopesOf hinvocation, rfl, hid.symm, rfl, rfl⟩
    · refine ⟨node, ?_, key_of_forEachOutputKind (eq_of_beq hkind)⟩
      rw [startedLoopObservation, hid]
      exact hnode
    · refine ⟨node, structured, ?_, hstructured, rfl⟩
      rw [startedLoopObservation, hid]
      exact hnode
    · refine ⟨node, structured, ?_, hstructured, rfl⟩
      rw [startedLoopObservation, hid]
      exact hnode
  · cases hstructured

theorem loopStartFits_declared {host : EngineHost} {checkpoint : WorkflowCheckpoint}
    {outcomes : SuccessfulOutcomes} {completed : List CompletedOutput}
    {progress : LoopDeclarationProgress}
    (h : completed.foldlM (declareLoopStep host checkpoint (nodesById executable) outcomes) {} =
      Except.ok progress) :
    forall started, started ∈ progress.observations ->
      LoopStartFits executable (scopesOf checkpoint.invocations) started := by
  apply foldlM_invariant
    (fun progress : LoopDeclarationProgress => forall started, started ∈ progress.observations ->
      LoopStartFits executable (scopesOf checkpoint.invocations) started) _ _ h
  · intro started hstarted
    cases hstarted
  · intro material _ before after hbefore hstep
    unfold declareLoopStep at hstep
    rcases exists_of_bind_eq_ok hstep with ⟨_, _, hread⟩
    split at hread
    · exact absurd hread fail_ne_ok
    · split at hread
      · cases hread
        exact hbefore
      · rename_i invocation hfound
        split at hread
        · cases hread
          exact hbefore
        · rename_i node hnode
          split at hread
          · cases hread
            exact hbefore
          · rename_i structured hstructured
            unfold declareLoopMaterial at hread
            dsimp only at hread
            split at hread
            · rcases exists_of_bind_eq_ok hread with ⟨_, _, hdone⟩
              cases hdone
              exact hbefore
            · rcases exists_of_bind_eq_ok hread with ⟨items, _, hdone⟩
              split at hdone
              · exact absurd hdone fail_ne_ok
              · cases hdone
                intro started hstarted
                rcases List.mem_append.mp hstarted with hold | hnew
                · exact hbefore started hold
                · rw [List.mem_singleton.mp hnew]
                  exact loopStartFits_startedLoop (List.mem_of_find?_eq_some hfound) hnode
                    hstructured

theorem forEachObservations_fit {host : EngineHost} {completed : List CompletedOutput}
    {facts : List PersistedFact} {declaredElsewhere : List String} {outcomes : SuccessfulOutcomes}
    {checkpoint : WorkflowCheckpoint} {derivedObservations : List WorkflowObservation}
    {forEach : ForEachObservations} (hfacts : HasTerminalOutcomes facts)
    (hderived : AllPlain derivedObservations)
    (h : forEachCoordinatorObservations host completed facts declaredElsewhere outcomes checkpoint
      (nodesById executable) derivedObservations = Except.ok forEach) :
    forall observation, observation ∈ forEach.observations ->
      ObservationFits executable checkpoint.workflowVersionId (scopesOf checkpoint.invocations)
        observation := by
  unfold forEachCoordinatorObservations at h
  dsimp only at h
  rcases exists_of_bind_eq_ok h with ⟨progress, hprogress, hrest⟩
  rcases exists_of_bind_eq_ok hrest with ⟨completions, hcompletions, hdone⟩
  cases hdone
  intro observation hmem
  rcases List.mem_append.mp (mem_sortWith.mp hmem) with hstarted | hcompleted
  · rcases List.mem_map.mp hstarted with ⟨started, hmemStarted, rfl⟩
    exact loopStartFits_declared hprogress started hmemStarted
  · rcases List.mem_map.mp hcompleted with ⟨completion, hmemCompletion, rfl⟩
    exact isTerminal_of_completedLoops
      (allTerminal_terminalOutcomesForLoop hfacts hderived) hcompletions hmemCompletion

/-!
## Joins
-/

theorem scope_projectOutcome {projected : InvocationMap} {observation : WorkflowObservation}
    {invocation : InvocationState} (h : invocation ∈ projectOutcome projected observation) :
    exists source, source ∈ projected ∧ source.scope = invocation.scope := by
  unfold projectOutcome at h
  split at h
  · split at h
    · exact ⟨invocation, h, rfl⟩
    · rename_i source hget
      rcases Keyed.mem_set.mp h with rfl | ⟨hold, _⟩
      · exact ⟨source, Keyed.mem_of_get? hget, rfl⟩
      · exact ⟨invocation, hold, rfl⟩
  · exact ⟨invocation, h, rfl⟩

theorem scope_projected {observations : List WorkflowObservation} :
    forall {projected : InvocationMap} {invocation : InvocationState},
      invocation ∈ observations.foldl projectOutcome projected ->
      exists source, source ∈ projected ∧ source.scope = invocation.scope := by
  induction observations with
  | nil =>
      intro projected invocation h
      exact ⟨invocation, h, rfl⟩
  | cons observation rest ih =>
      intro projected invocation h
      rcases ih h with ⟨middle, hmiddle, hscope⟩
      rcases scope_projectOutcome hmiddle with ⟨source, hsource, hscope'⟩
      exact ⟨source, hsource, hscope'.trans hscope⟩

theorem pairedParallelId_of_mergeConfig {node : NodeRecord} {config : MergeConfig}
    (h : mergeConfigOf node = some config) :
    configuredPairedParallelId node = some config.parallelNodeId := by
  unfold mergeConfigOf at h
  unfold configuredPairedParallelId
  cases hcontrol : node.control with
  | none =>
      rw [hcontrol] at h
      cases h
  | some control =>
      rw [hcontrol] at h
      cases control with
      | merge merged =>
          cases h
          rfl
      | switch cases => cases h
      | parallel parallel => cases h

theorem joinObservations_fit {checkpoint : WorkflowCheckpoint} {projected : InvocationMap}
    {edges : List WorkflowEdge} {merge : ExecutableNode} {config : MergeConfig}
    {branchIds : List String} {parallel : InvocationState}
    {observations : List WorkflowObservation}
    (hcheckpoint : ScheduledCheckpoint executable ledger checkpoint)
    (hmerge : merge ∈ nodesById executable)
    (hdefinition : isCoreMergeDefinition merge.record.definition = true)
    (hconfig : mergeConfigOf merge.record = some config)
    (hparallel : parallel.scope ∈ scopesOf checkpoint.invocations)
    (hnode : parallel.nodeId = config.parallelNodeId)
    (h : joinObservations checkpoint.workflowVersionId edges projected merge.record.id config
      branchIds parallel = Except.ok observations) :
    forall observation, observation ∈ observations ->
      ObservationFits executable checkpoint.workflowVersionId (scopesOf checkpoint.invocations)
        observation := by
  unfold joinObservations at h
  rcases exists_of_bind_eq_ok h with ⟨joinInvocationKey, hkey, hdone⟩
  cases hdone
  intro observation hmem
  rcases List.mem_cons.mp hmem with rfl | hdisposition
  · constructor
    · exact rawInvocationKey_of_scopedInvocationKey hkey
    · have hancestors := executable.paired_ancestors merge (mem_nodesById.mp hmerge) _
        (pairedParallelId_of_mergeConfig hconfig)
      have haddress := (hcheckpoint.addressed parallel.scope hparallel).ancestors
      have hscopeNode : parallel.scope.node = config.parallelNodeId := hnode
      rw [hscopeNode, hancestors] at haddress
      exact haddress
    · exact ⟨merge, Keyed.get?_of_mem hmerge, hdefinition⟩
    · exact ⟨parallel.scope, hparallel, rfl, List.prefix_refl _⟩
  · rcases List.mem_filterMap.mp hdisposition with ⟨branchId, _, hsome⟩
    rcases Option.map_eq_some_iff.mp hsome with ⟨entry, _, rfl⟩
    trivial

theorem mergeObservations_fit {checkpoint : WorkflowCheckpoint}
    {observations derived : List WorkflowObservation}
    (hcheckpoint : ScheduledCheckpoint executable ledger checkpoint)
    (h : mergeCoordinatorObservations executable checkpoint observations (nodesById executable) =
      Except.ok derived) :
    forall observation, observation ∈ derived ->
      ObservationFits executable checkpoint.workflowVersionId (scopesOf checkpoint.invocations)
        observation := by
  unfold mergeCoordinatorObservations at h
  dsimp only at h
  rcases exists_of_bind_eq_ok h with ⟨nested, hnested, hdone⟩
  cases hdone
  intro observation hmem
  rcases List.mem_flatten.mp hmem with ⟨ofMerge, hofMerge, hinner⟩
  rcases exists_of_mem_mapM hnested hofMerge with ⟨merge, hmergeMem, hmergeOk⟩
  rcases List.mem_filter.mp hmergeMem with ⟨hmerge, hdefinition⟩
  unfold mergeObservations at hmergeOk
  split at hmergeOk
  · exact absurd hmergeOk fail_ne_ok
  · rename_i config hconfig
    split at hmergeOk
    · exact absurd hmergeOk fail_ne_ok
    · dsimp only at hmergeOk
      rcases exists_of_bind_eq_ok hmergeOk with ⟨ofParallels, hofParallels, hdone⟩
      cases hdone
      rcases List.mem_flatten.mp hinner with ⟨ofParallel, hofParallel, hmemParallel⟩
      rcases exists_of_mem_mapM hofParallels hofParallel with ⟨parallel, hparallelMem, hjoin⟩
      rcases List.mem_filter.mp hparallelMem with ⟨hprojected, hpaired⟩
      rw [Bool.and_eq_true, beq_iff_eq, beq_iff_eq] at hpaired
      rcases scope_projected hprojected with ⟨source, hsource, hscope⟩
      have hparallel : parallel.scope ∈ scopesOf checkpoint.invocations :=
        ⟨source, Keyed.mem_of_mem_ofList hsource, hscope⟩
      exact joinObservations_fit hcheckpoint hmerge hdefinition hconfig hparallel hpaired.right
        hjoin observation hmemParallel

/-!
## The whole batch
-/

theorem observations_fit {host : EngineHost} {input : AdvanceWorkflowInput}
    {checkpoint : WorkflowCheckpoint} {coordinated : CoordinatedObservations}
    (hcheckpoint : ScheduledCheckpoint input.executable ledger checkpoint)
    (h : coordinateObservations host input checkpoint = Except.ok coordinated) :
    forall observation, observation ∈ allObservations coordinated ->
      ObservationFits input.executable checkpoint.workflowVersionId
        (scopesOf checkpoint.invocations) observation := by
  unfold coordinateObservations at h
  dsimp only at h
  rcases exists_of_bind_eq_ok h with ⟨persisted, hpersisted, hrest⟩
  rcases exists_of_bind_eq_ok hrest with ⟨branchSelections, hbranches, hrest⟩
  rcases exists_of_bind_eq_ok hrest with ⟨resolvedFailures, hfailures, hrest⟩
  rcases exists_of_bind_eq_ok hrest with ⟨calls, hcalls, hrest⟩
  rcases exists_of_bind_eq_ok hrest with ⟨callOutcomes, hcallOutcomes, hrest⟩
  rcases exists_of_bind_eq_ok hrest with ⟨tasks, htasks, hrest⟩
  rcases exists_of_bind_eq_ok hrest with ⟨taskOutcomes, htaskOutcomes, hrest⟩
  rcases exists_of_bind_eq_ok hrest with ⟨forEach, hforEach, hrest⟩
  rcases exists_of_bind_eq_ok hrest with ⟨joins, hjoins, hdone⟩
  cases hdone
  rcases parsePersistedObservations_spec hpersisted with ⟨hfacts, hterminal, hfresh⟩
  have hplainFailures := allPlain_resolvedFailures hfailures
  have hplainCalls := allPlain_callOutcomes hcallOutcomes
  have hplainTasks := allPlain_taskOutcomes htaskOutcomes
  have hplain : AllPlain
      ((persisted.fresh.map SequencedFact.toObservation).map
          (rewriteDeclaredOutcome (forEach.declarationInvocationKeys ++
            (calls.declarationInvocationKeys ++ tasks.declarationInvocationKeys))) ++
        branchSelections ++ resolvedFailures ++ calls.observations ++ callOutcomes ++
        tasks.observations ++ taskOutcomes) := by
    refine AllPlain.append (AllPlain.append (AllPlain.append (AllPlain.append (AllPlain.append
      (AllPlain.append ?_ (allPlain_branchSelections hbranches)) hplainFailures)
      (allPlain_callDeclarations hcalls)) hplainCalls) (allPlain_taskDeclarations htasks))
      hplainTasks
    intro observation hmem
    rcases List.mem_map.mp hmem with ⟨_, hobserved, rfl⟩
    rcases List.mem_map.mp hobserved with ⟨fact, hfact, rfl⟩
    exact (isPlain_toObservation hterminal (hfresh fact hfact)).rewriteDeclaredOutcome
  intro observation hmem
  unfold allObservations at hmem
  dsimp only at hmem
  rcases List.mem_append.mp hmem with hmem | hjoin
  · rcases List.mem_append.mp hmem with hmem | hloop
    · exact (hplain observation hmem).fits
    · rw [hfacts] at hforEach
      exact forEachObservations_fit hterminal
        ((hplainFailures.append hplainCalls).append hplainTasks) hforEach observation hloop
  · exact mergeObservations_fit hcheckpoint hjoins observation hjoin

end Engine
end Pertexo
