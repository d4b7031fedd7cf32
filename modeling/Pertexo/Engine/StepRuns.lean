import Mathlib.Algebra.BigOperators.Group.List.Basic
import Mathlib.Algebra.Group.Action.Defs
import Mathlib.Data.Finset.Card
import Pertexo.Engine.AttemptDiscipline

/-!
# How often a step runs

## Iterations around a step

A loop admits no more iterations than its step is bounded by, so the paths of a
step are as many as the products of these bounds.
-/

namespace Pertexo
namespace Engine

open Library
open Values

variable {executable : CompiledWorkflowExecutable} {ledger : Ledger}

/-- The iterations that one run of a loop admits at most; what is no loop admits none. -/
def iterationBound (executable : CompiledWorkflowExecutable) (loopNodeId : String) : Nat :=
  match (nodesById executable).get? loopNodeId with
  | none => 0
  | some node => (node.structured.map ForEachStructure.maxIterations).getD 0

theorem iterationBound_of_structured {node : ExecutableNode} {structured : ForEachStructure}
    {loopNodeId : String} (hnode : (nodesById executable).get? loopNodeId = some node)
    (hstructured : node.structured = some structured) :
    iterationBound executable loopNodeId = structured.maxIterations := by
  rw [iterationBound, hnode]
  show (node.structured.map ForEachStructure.maxIterations).getD 0 = structured.maxIterations
  rw [hstructured]
  rfl

theorem nextOrdinal_le_iterationBound {loop : LoopState} (h : loop.Fits executable) :
    loop.nextOrdinal ≤ iterationBound executable loop.loopId := by
  rcases h.iterations with ⟨node, structured, hnode, hstructured, hiterations⟩
  rw [iterationBound_of_structured hnode hstructured, ← hiterations]
  exact h.next.trans h.collection

theorem Scheduled.ordinal_lt {workflowVersionId : String} {invocations : List InvocationState}
    {loops : List LoopState}
    (h : Scheduled executable workflowVersionId ledger invocations loops)
    {scope : InvocationScope} (hscope : scope ∈ scopesOf invocations)
    {part : IterationScopePart} (hpart : part ∈ scope.path) :
    part.ordinal < iterationBound executable part.loopNodeId := by
  rcases List.append_of_mem hpart with ⟨outer, inner, hpath⟩
  have hleading : outer ++ [part] <+: scope.path := by
    refine ⟨inner, ?_⟩
    rw [hpath, List.append_assoc]
    rfl
  rcases h.nested.enclosed scope hscope outer part hleading with
    ⟨_, ⟨loop, hloop, rfl⟩, _, _, ordinal, hordinal, rfl⟩
  exact Nat.lt_of_lt_of_le hordinal (nextOrdinal_le_iterationBound (h.fits loop hloop))

/-- The iteration paths through some loops, below their bounds. -/
def iterationPaths (bound : String -> Nat) : List String -> List IterationPath
  | [] => [[]]
  | loopNodeId :: rest =>
      (List.range (bound loopNodeId)).flatMap fun ordinal =>
        (iterationPaths bound rest).map (iterationPart loopNodeId ordinal :: ·)

theorem length_iterationPaths (bound : String -> Nat) (loops : List String) :
    (iterationPaths bound loops).length = (loops.map bound).prod := by
  induction loops with
  | nil => rfl
  | cons loopNodeId rest ih =>
      rw [iterationPaths, List.length_flatMap, List.map_cons, List.prod_cons]
      simp only [List.length_map, ih]
      rw [List.map_const', List.length_range, List.sum_replicate, smul_eq_mul]

theorem mem_iterationPaths {bound : String -> Nat} {loops : List String} {path : IterationPath}
    (hloops : path.map IterationScopePart.loopNodeId = loops)
    (hbound : forall part, part ∈ path -> part.ordinal < bound part.loopNodeId) :
    path ∈ iterationPaths bound loops := by
  induction path generalizing loops with
  | nil =>
      rw [← hloops]
      exact List.mem_singleton_self _
  | cons part rest ih =>
      rw [← hloops, List.map_cons, iterationPaths]
      refine List.mem_flatMap.mpr ⟨part.ordinal, ?_, ?_⟩
      · exact List.mem_range.mpr (hbound part (List.mem_cons_self ..))
      · refine List.mem_map.mpr ⟨rest, ih rfl ?_, rfl⟩
        exact fun other hother => hbound other (List.mem_cons_of_mem _ hother)

/-!
## The runs of a step
-/

def stepRunsOfAdvance (host : EngineHost) (nodeId : String) (input : AdvanceWorkflowInput) :
    List String :=
  match advanceWorkflow host input with
  | Except.error _ => []
  | Except.ok plan =>
      (plan.attempts.filter fun attempt => attempt.nodeId == nodeId).map
        AttemptAdmissionPlan.invocationKey

def stepRuns (host : EngineHost) (inputs : List AdvanceWorkflowInput) (nodeId : String) :
    Finset String :=
  (inputs.flatMap (stepRunsOfAdvance host nodeId)).toFinset

theorem mem_stepRunsOfAdvance {host : EngineHost} {input : AdvanceWorkflowInput}
    {plan : WorkflowTransitionPlan} (h : advanceWorkflow host input = Except.ok plan)
    {nodeId invocationKey : String} :
    invocationKey ∈ stepRunsOfAdvance host nodeId input ↔
      exists attempt, attempt ∈ plan.attempts ∧ attempt.nodeId = nodeId ∧
        attempt.invocationKey = invocationKey := by
  unfold stepRunsOfAdvance
  rw [h]
  simp [List.mem_map, List.mem_filter, and_assoc]

theorem mem_stepRuns_append {host : EngineHost} {inputs : List AdvanceWorkflowInput}
    {input : AdvanceWorkflowInput} {nodeId invocationKey : String} :
    invocationKey ∈ stepRuns host (inputs ++ [input]) nodeId ↔
      invocationKey ∈ stepRuns host inputs nodeId ∨
        invocationKey ∈ stepRunsOfAdvance host nodeId input := by
  simp [stepRuns]

structure IsStepScope (executable : CompiledWorkflowExecutable) (workflowVersionId nodeId : String)
    (scope : InvocationScope) : Prop where
  address : IsAddress executable workflowVersionId scope
  node : scope.node = nodeId
  bounded : forall part, part ∈ scope.path ->
    part.ordinal < iterationBound executable part.loopNodeId

/-- The invocations of a step that a run has admitted are in different iterations. -/
structure RunsApart (host : EngineHost) (executable : CompiledWorkflowExecutable)
    (workflowVersionId nodeId : String) (inputs : List AdvanceWorkflowInput) (ledger : Ledger)
    (checkpoint : WorkflowCheckpoint) : Prop where
  records : RunRecords executable workflowVersionId ledger checkpoint
  scopes : forall invocationKey, invocationKey ∈ stepRuns host inputs nodeId ->
    exists scope, IsStepScope executable workflowVersionId nodeId scope ∧
      scope.key = invocationKey
  apart : forall scope scope', IsStepScope executable workflowVersionId nodeId scope ->
    IsStepScope executable workflowVersionId nodeId scope' ->
    scope.key ∈ stepRuns host inputs nodeId -> scope'.key ∈ stepRuns host inputs nodeId ->
    scope.path = scope'.path -> scope.key = scope'.key
  tracked : forall invocationKey, invocationKey ∈ stepRuns host inputs nodeId ->
    Tracked executable workflowVersionId ledger.left checkpoint.invocations invocationKey
      fun _ => True

section

variable {host : EngineHost} {inputs : List AdvanceWorkflowInput} {input : AdvanceWorkflowInput}
variable {plan : WorkflowTransitionPlan} {nodeId : String}

theorem RunsApart.created {workflowVersionId : String} {budget : Nat}
    {checkpoint : WorkflowCheckpoint} (h : IsCreated workflowVersionId budget checkpoint) :
    RunsApart host executable workflowVersionId nodeId [] { admissions := [], left := ∅ }
      checkpoint := by
  refine ⟨runRecords_created h, ?_, ?_, ?_⟩
  · intro invocationKey hkey
    cases List.mem_toFinset.mp hkey
  · intro scope scope' _ _ hkey
    cases List.mem_toFinset.mp hkey
  · intro invocationKey hkey
    cases List.mem_toFinset.mp hkey

theorem exists_settled_of_stepRun {settled : WorkflowTransition} {before : List InvocationState}
    (hplan : advanceWorkflow host input = Except.ok plan)
    (h : SettledRecords input ledger before plan.attempts settled) {invocationKey : String}
    (hkey : invocationKey ∈ stepRunsOfAdvance host nodeId input) :
    exists invocation, invocation ∈ settled.invocations ∧
      invocation.invocationKey = invocationKey ∧ invocation.nodeId = nodeId := by
  rcases (mem_stepRunsOfAdvance hplan).mp hkey with ⟨attempt, hattempt, hnode, rfl⟩
  rcases h.steps attempt hattempt with ⟨invocation, hmem, hsame, hsameNode⟩
  exact ⟨invocation, hmem, hsame, hsameNode.trans hnode⟩

theorem SettledRecords.isStepScope {settled : WorkflowTransition} {before : List InvocationState}
    {attempts : List AttemptAdmissionPlan}
    (h : SettledRecords input ledger before attempts settled) {invocation : InvocationState}
    (hmem : invocation ∈ settled.invocations) (hnode : invocation.nodeId = nodeId) :
    IsStepScope input.executable input.workflowVersionId nodeId invocation.scope where
  address := by
    rw [← h.version]
    exact h.scheduled.records.addressed _ (mem_scopesOf hmem)
  node := hnode
  bounded := fun _ hpart => h.scheduled.records.ordinal_lt (mem_scopesOf hmem) hpart

theorem RunsApart.advance
    (h : RunsApart host input.executable input.workflowVersionId nodeId inputs ledger
      input.checkpoint)
    (hplain : ¬ IsMergeStep input.executable nodeId)
    (hadvance : advanceWorkflow host input = Except.ok plan) :
    exists next, RunsApart host input.executable input.workflowVersionId nodeId (inputs ++ [input])
      next plan.checkpoint := by
  rcases exists_advanceRecords h.records.scheduled hadvance with ⟨settled, paths, hadvanced⟩
  have hscheduled := hadvanced.records.scheduled.records
  -- an admitted invocation is still there, or its path is closed since an earlier advance
  have hstands : forall scope, IsStepScope input.executable input.workflowVersionId nodeId scope ->
      scope.key ∈ stepRuns host (inputs ++ [input]) nodeId ->
      (exists invocation, invocation ∈ settled.invocations ∧
        invocation.invocationKey = scope.key ∧ invocation.nodeId = nodeId ∧
        invocation.scope.path = scope.path) ∨
      (scope.key ∈ stepRuns host inputs nodeId ∧ scope.path ∈ ledger.left) := by
    intro scope hscope hkey
    have halive : forall invocation, invocation ∈ settled.invocations ->
        invocation.invocationKey = scope.key ->
        exists invocation, invocation ∈ settled.invocations ∧
          invocation.invocationKey = scope.key ∧ invocation.nodeId = nodeId ∧
          invocation.scope.path = scope.path := by
      intro invocation hmem hsame
      have haddress := hscheduled.addressed _ (mem_scopesOf hmem)
      rw [hadvanced.records.version] at haddress
      rcases haddress.eq_of_key_eq hscope.address hsame with ⟨hnode, hpath⟩
      exact ⟨invocation, hmem, hsame, hnode.trans hscope.node, hpath⟩
    rcases mem_stepRuns_append.mp hkey with hold | hnew
    · rcases h.tracked _ hold with ⟨invocation, hmem, hsame, _⟩ | ⟨closed, haddress, hsame, hleft⟩
      · rcases hadvanced.records.kept invocation hmem with ⟨kept, hkept, hcontinues, _⟩
        exact Or.inl (halive kept hkept (hcontinues.key.trans hsame))
      · have hpath := (haddress.eq_of_key_eq hscope.address hsame).right
        exact Or.inr ⟨hold, hpath ▸ hleft⟩
    · rcases exists_settled_of_stepRun hadvance hadvanced.records hnew with
        ⟨invocation, hmem, hsame, _⟩
      exact Or.inl (halive invocation hmem hsame)
  refine ⟨_, hadvanced.planned, ?_, ?_, ?_⟩
  · intro invocationKey hkey
    rcases mem_stepRuns_append.mp hkey with hold | hnew
    · exact h.scopes invocationKey hold
    · rcases exists_settled_of_stepRun hadvance hadvanced.records hnew with
        ⟨invocation, hmem, hsame, hnode⟩
      exact ⟨invocation.scope, hadvanced.records.isStepScope hmem hnode, hsame⟩
  · intro scope scope' hscope hscope' hkey hkey' hpath
    rcases hstands scope hscope hkey with
      ⟨invocation, hmem, hsame, hnode, hown⟩ | ⟨hold, hleft⟩
    · rcases hstands scope' hscope' hkey' with
        ⟨invocation', hmem', hsame', hnode', hown'⟩ | ⟨_, hleft'⟩
      · rw [← hsame, ← hsame']
        apply hscheduled.nested.unique _ (mem_scopesOf hmem) _ (mem_scopesOf hmem')
        · intro hmerge
          exact hplain (hnode ▸ hmerge)
        · exact hnode.trans hnode'.symm
        · exact hown.trans (hpath.trans hown'.symm)
      · rw [← hpath, ← hown] at hleft'
        exact absurd hleft' (hscheduled.not_left hmem)
    · rcases hstands scope' hscope' hkey' with
        ⟨invocation', hmem', _, _, hown'⟩ | ⟨hold', _⟩
      · rw [hpath, ← hown'] at hleft
        exact absurd hleft (hscheduled.not_left hmem')
      · exact h.apart scope scope' hscope hscope' hold hold' hpath
  · intro invocationKey hkey
    rcases mem_stepRuns_append.mp hkey with hold | hnew
    · exact hadvanced.tracks (fun _ _ _ _ => trivial) (h.tracked invocationKey hold)
    · rcases exists_settled_of_stepRun hadvance hadvanced.records hnew with
        ⟨invocation, hmem, hsame, _⟩
      have htracked := hadvanced.tracked _ (fun _ _ _ _ => trivial) invocation hmem trivial
      rw [hsame] at htracked
      exact htracked

theorem runsApart_of_run {workflowVersionId : String} {budget : Nat}
    {checkpoint : WorkflowCheckpoint} (hplain : ¬ IsMergeStep executable nodeId)
    (h : WorkflowRun host executable workflowVersionId budget inputs checkpoint) :
    exists ledger, RunsApart host executable workflowVersionId nodeId inputs ledger checkpoint := by
  apply h.invariant fun inputs checkpoint =>
    exists ledger, RunsApart host executable workflowVersionId nodeId inputs ledger checkpoint
  · intro start hstart
    exact ⟨_, RunsApart.created hstart⟩
  · rintro inputs _ input _ _ ⟨ledger, hapart⟩ ⟨rfl, rfl, rfl, plan, hadvance, rfl⟩
    exact hapart.advance hplain hadvance

/-- A step that is no join runs at most once in each of the iterations around it. -/
theorem card_stepRuns_le {workflowVersionId : String} {budget : Nat}
    {checkpoint : WorkflowCheckpoint} {loops : List String}
    (h : WorkflowRun host executable workflowVersionId budget inputs checkpoint)
    (hplain : ¬ IsMergeStep executable nodeId)
    (hloops : ancestorsOf executable.graph nodeId = some loops) :
    (stepRuns host inputs nodeId).card ≤ (loops.map (iterationBound executable)).prod := by
  rcases runsApart_of_run hplain h with ⟨ledger, hapart⟩
  rw [← length_iterationPaths]
  have hpaths : forall invocationKey, invocationKey ∈ stepRuns host inputs nodeId ->
      exists path, path ∈ iterationPaths (iterationBound executable) loops ∧
        exists scope, IsStepScope executable workflowVersionId nodeId scope ∧
          scope.key = invocationKey ∧ scope.path = path := by
    intro invocationKey hkey
    rcases hapart.scopes invocationKey hkey with ⟨scope, hscope, hsame⟩
    refine ⟨scope.path, mem_iterationPaths ?_ hscope.bounded, scope, hscope, hsame, rfl⟩
    have hancestors := hscope.address.ancestors
    rw [hscope.node, hloops] at hancestors
    exact (Option.some.inj hancestors).symm
  choose! pathOf hmem hscopes using hpaths
  refine (Finset.card_le_card_of_injOn pathOf ?_ ?_).trans (List.toFinset_card_le _)
  · intro invocationKey hkey
    exact List.mem_toFinset.mpr (hmem invocationKey hkey)
  · intro left hleft right hright hsame
    rcases hscopes left hleft with ⟨scope, hscope, hkey, hpath⟩
    rcases hscopes right hright with ⟨scope', hscope', hkey', hpath'⟩
    rw [← hkey, ← hkey']
    apply hapart.apart scope scope' hscope hscope'
    · rw [hkey]
      exact hleft
    · rw [hkey']
      exact hright
    · exact hpath.trans (hsame.trans hpath'.symm)

end

end Engine
end Pertexo
