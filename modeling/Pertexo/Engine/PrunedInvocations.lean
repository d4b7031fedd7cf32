import Pertexo.Engine.AttemptDiscipline

/-!
# Pruned invocations

An advance removes the invocations of finished iterations from the checkpoint and reports them.
What a run has removed had ended, and neither a record nor an attempt of it comes back.

## The invocations of one advance
-/

namespace Pertexo
namespace Engine

open Library
open Values

variable {executable : CompiledWorkflowExecutable} {ledger : Ledger}

def prunedOfAdvance (host : EngineHost) (input : AdvanceWorkflowInput) : List InvocationState :=
  match advanceWorkflow host input with
  | Except.error _ => []
  | Except.ok plan => plan.prunedInvocations

theorem prunedOfAdvance_eq {host : EngineHost} {input : AdvanceWorkflowInput}
    {plan : WorkflowTransitionPlan} (h : advanceWorkflow host input = Except.ok plan) :
    prunedOfAdvance host input = plan.prunedInvocations := by
  unfold prunedOfAdvance
  rw [h]

def prunedOfRun (host : EngineHost) (inputs : List AdvanceWorkflowInput) : List InvocationState :=
  inputs.flatMap (prunedOfAdvance host)

theorem PlanPasses.prunedInvocations {state : WorkflowTransition} {input : PlanInput}
    {plan : WorkflowTransitionPlan} (planned : PlanPasses state input plan)
    (h : buildWorkflowTransitionPlan state input = Except.ok plan) :
    plan.prunedInvocations = (pruneFinishedIterations planned.settled).prunedInvocations := by
  unfold buildWorkflowTransitionPlan at h
  rcases exists_of_bind_eq_ok h with ⟨admittedKeys, hadmissible, hrest⟩
  rcases exists_of_bind_eq_ok hrest with ⟨admissions, hadmissions, hrest⟩
  rcases exists_of_bind_eq_ok hrest with ⟨settled, hsettled, hplan⟩
  cases hadmissible.symm.trans planned.admissible
  cases hadmissions.symm.trans planned.admits
  cases hsettled.symm.trans planned.settles
  unfold planFromSettled at hplan
  rcases exists_of_bind_eq_ok hplan with ⟨checkpoint, _, hrest⟩
  rcases exists_of_bind_eq_ok hrest with ⟨nodeRunAdmissions, _, hrest⟩
  rcases exists_of_bind_eq_ok hrest with ⟨immediateContinuation, _, hdone⟩
  exact (congrArg WorkflowTransitionPlan.prunedInvocations (Except.ok.inj hdone)).symm

/-- The invocation went on to end inside an iteration of a loop. -/
structure EndsInIteration (invocation last : InvocationState) : Prop where
  continues : Continues invocation last
  terminal : isTerminalNodeStatus last.status = true
  nested : last.iterationPath.getD [] ≠ []

/-- The invocation is still recorded. -/
def IsKept (invocation : InvocationState) (checkpoint : WorkflowCheckpoint) : Prop :=
  exists later, later ∈ checkpoint.invocations ∧ Continues invocation later

/-- The invocation is among the pruned ones. -/
def IsPruned (invocation : InvocationState) (pruned : List InvocationState) : Prop :=
  exists last, last ∈ pruned ∧ EndsInIteration invocation last

theorem ended_of_pruned {state : WorkflowTransition} {invocation : InvocationState}
    (hmem : invocation ∈ state.invocations)
    (hpruned : invocation.invocationKey ∈
      prunedKeysOf state.invocations.items state.loops.items) :
    isTerminalNodeStatus invocation.status = true ∧ invocation.iterationPath.getD [] ≠ [] := by
  unfold prunedKeysOf at hpruned
  rcases List.mem_flatMap.mp hpruned with ⟨loop, _, hkeys⟩
  rcases List.mem_flatMap.mp hkeys with ⟨ordinal, _, hkey⟩
  rcases mem_finishedOwnerKeys.mp hkey with ⟨hterminal, owner, howner, howns, hsame⟩
  obtain rfl : owner = invocation := Keyed.eq_of_mem_of_key_eq howner hmem hsame
  refine ⟨hterminal owner howner howns, ?_⟩
  rw [iterationOwns, Bool.and_eq_true, iterationPathHasPrefix_iff] at howns
  intro hnil
  have hprefix := howns.left
  rw [hnil, List.prefix_nil] at hprefix
  exact List.append_ne_nil_of_right_ne_nil _ (List.cons_ne_nil _ _) hprefix

/-- An advance goes on with an invocation, or ends it and reports it as pruned. -/
theorem kept_or_pruned {host : EngineHost} {input : AdvanceWorkflowInput}
    {plan : WorkflowTransitionPlan}
    (hcheckpoint : ScheduledCheckpoint input.executable ledger input.checkpoint)
    (h : advanceWorkflow host input = Except.ok plan) {invocation : InvocationState}
    (hmem : invocation ∈ input.checkpoint.invocations) :
    IsKept invocation plan.checkpoint ∨ IsPruned invocation (prunedOfAdvance host input) := by
  rcases exists_advancePasses h with ⟨passes⟩
  rcases exists_planPasses passes.plans with ⟨planned⟩
  rcases (passes.settledRecords planned hcheckpoint).kept invocation hmem with
    ⟨kept, hkept, hcontinues, _⟩
  by_cases hpruned : kept.invocationKey ∈
      prunedKeysOf planned.settled.invocations.items planned.settled.loops.items
  · right
    rcases ended_of_pruned hkept hpruned with ⟨hterminal, hnested⟩
    refine ⟨kept, ?_, hcontinues, hterminal, hnested⟩
    rw [prunedOfAdvance_eq h, planned.prunedInvocations passes.plans]
    exact List.mem_filter.mpr ⟨hkept, List.contains_iff_mem.mpr hpruned⟩
  · left
    refine ⟨kept.normalizeScope, ?_, hcontinues.trans (continues_normalizeScope kept)⟩
    apply (parsedFrom_of_parseCheckpoint planned.parsed).mem_iff.mpr
    refine ⟨kept, List.mem_filter.mpr ⟨hkept, ?_⟩, rfl⟩
    rw [Bool.not_eq_true', ← Bool.not_eq_true, List.contains_iff_mem]
    exact hpruned

/-!
## Removed for good
-/

/-- No record of the key can come back: the path of its scope is closed. -/
def IsClosedKey (executable : CompiledWorkflowExecutable) (workflowVersionId : String)
    (ledger : Ledger) (invocationKey : String) : Prop :=
  exists scope, IsAddress executable workflowVersionId scope ∧ scope.key = invocationKey ∧
    scope.path ∈ ledger.left

theorem IsClosedKey.tracked {workflowVersionId invocationKey : String}
    (h : IsClosedKey executable workflowVersionId ledger invocationKey)
    (invocations : List InvocationState) :
    Tracked executable workflowVersionId ledger.left invocations invocationKey fun _ => False :=
  Or.inr h

theorem IsClosedKey.advance {host : EngineHost} {input : AdvanceWorkflowInput}
    {plan : WorkflowTransitionPlan} {settled : WorkflowTransition} {paths : Set IterationPath}
    {invocationKey : String}
    (h : IsClosedKey input.executable input.workflowVersionId ledger invocationKey)
    (hrecords : AdvanceRecords host input ledger plan settled paths)
    (hadvance : advanceWorkflow host input = Except.ok plan) :
    IsClosedKey input.executable input.workflowVersionId
        ((ledger.record (admissionsOfAdvance host input)).leave paths) invocationKey ∧
      forall attemptNumber, (invocationKey, attemptNumber) ∉ attemptsOfAdvance host input := by
  constructor
  · rcases h with ⟨scope, haddress, hkey, hleft⟩
    exact ⟨scope, haddress, hkey, Or.inl hleft⟩
  · intro attemptNumber hadmitted
    rcases (mem_attemptsOfAdvance hadvance).mp hadmitted with ⟨attempt, hattempt, hpair⟩
    rcases hrecords.records.admitted attempt hattempt with ⟨invocation, hmem, hkey, _⟩
    have hsettled := hrecords.records.scheduled.records
    rw [hrecords.records.version] at hsettled
    have htracked := h.tracked settled.invocations.items
    exact htracked.eq hsettled settled.invocations.nodup hmem
      (hkey.trans (congrArg Prod.fst hpair))

/-- Neither a record nor an attempt of the key is in the rest of a run. -/
def IsGone (host : EngineHost) (executable : CompiledWorkflowExecutable)
    (workflowVersionId invocationKey : String) (checkpoint : WorkflowCheckpoint) : Prop :=
  forall rest after, WorkflowContinuation host executable workflowVersionId checkpoint rest after ->
    (forall other, other ∈ after.invocations -> other.invocationKey ≠ invocationKey) ∧
      forall attemptNumber, (invocationKey, attemptNumber) ∉ attemptsOfRun host rest

structure StaysClosed (host : EngineHost) (executable : CompiledWorkflowExecutable)
    (workflowVersionId invocationKey : String) (inputs : List AdvanceWorkflowInput)
    (checkpoint : WorkflowCheckpoint) : Prop where
  closed : exists ledger, RunRecords executable workflowVersionId ledger checkpoint ∧
    IsClosedKey executable workflowVersionId ledger invocationKey
  free : forall attemptNumber, (invocationKey, attemptNumber) ∉ attemptsOfRun host inputs

theorem isGone_of_isClosedKey {host : EngineHost} {workflowVersionId invocationKey : String}
    {checkpoint : WorkflowCheckpoint}
    (hrecords : RunRecords executable workflowVersionId ledger checkpoint)
    (hclosed : IsClosedKey executable workflowVersionId ledger invocationKey) :
    IsGone host executable workflowVersionId invocationKey checkpoint := by
  intro rest after hrest
  have hinvariant : StaysClosed host executable workflowVersionId invocationKey rest after := by
    apply hrest.invariant (StaysClosed host executable workflowVersionId invocationKey)
    · rintro _ rfl
      exact ⟨⟨ledger, hrecords, hclosed⟩, fun _ hmem => absurd hmem List.not_mem_nil⟩
    · rintro inputs _ input _ _ ⟨⟨known, hknown, hstays⟩, hfree⟩
        ⟨rfl, rfl, rfl, plan, hadvance, rfl⟩
      rcases exists_advanceRecords hknown.scheduled hadvance with ⟨_, _, hadvanced⟩
      rcases hstays.advance hadvanced hadvance with ⟨hnext, hnone⟩
      refine ⟨⟨_, hadvanced.planned, hnext⟩, ?_⟩
      intro attemptNumber hmem
      unfold attemptsOfRun at hmem
      rw [List.flatMap_append, List.mem_append, List.flatMap_singleton] at hmem
      rcases hmem with hearlier | hlast
      · exact hfree attemptNumber hearlier
      · exact hnone attemptNumber hlast
  rcases hinvariant with ⟨⟨known, hknown, hstays⟩, hfree⟩
  refine ⟨?_, hfree⟩
  intro other hother hkey
  exact hknown.eq_of_tracked (hstays.tracked _) hother hkey

structure StaysOrEnds (host : EngineHost) (executable : CompiledWorkflowExecutable)
    (workflowVersionId : String) (invocation : InvocationState)
    (inputs : List AdvanceWorkflowInput) (checkpoint : WorkflowCheckpoint) : Prop where
  tracked : exists ledger, RunRecords executable workflowVersionId ledger checkpoint ∧
    Tracked executable workflowVersionId ledger.left checkpoint.invocations
      invocation.invocationKey (Continues invocation)
  found : IsKept invocation checkpoint ∨ IsPruned invocation (prunedOfRun host inputs)

/-- A run goes on with an invocation until it has ended in an iteration and is pruned; then
neither a record nor an attempt of it comes back. -/
theorem pruned_for_good {host : EngineHost} {workflowVersionId : String} {budget : Nat}
    {inputs more : List AdvanceWorkflowInput} {before mid : WorkflowCheckpoint}
    (hrun : WorkflowRun host executable workflowVersionId budget inputs before)
    (hmore : WorkflowContinuation host executable workflowVersionId before more mid)
    {invocation : InvocationState} (hmem : invocation ∈ before.invocations) :
    IsKept invocation mid ∨ (IsPruned invocation (prunedOfRun host more) ∧
      IsGone host executable workflowVersionId invocation.invocationKey mid) := by
  have hinvariant : StaysOrEnds host executable workflowVersionId invocation more mid := by
    apply hmore.invariant (StaysOrEnds host executable workflowVersionId invocation)
    · rintro _ rfl
      rcases runRecords_of_run hrun with ⟨ledger, hrecords⟩
      exact ⟨⟨ledger, hrecords, Or.inl ⟨invocation, hmem, rfl, Continues.refl invocation⟩⟩,
        Or.inl ⟨invocation, hmem, Continues.refl invocation⟩⟩
    · rintro inputs _ input _ _ ⟨⟨known, hknown, htracked⟩, hfound⟩
        ⟨rfl, rfl, rfl, plan, hadvance, rfl⟩
      rcases exists_advanceRecords hknown.scheduled hadvance with ⟨_, _, hadvanced⟩
      refine ⟨⟨_, hadvanced.planned,
        hadvanced.tracks (fun _ _ hstep hbefore => hbefore.trans hstep) htracked⟩, ?_⟩
      have hreported : prunedOfRun host (inputs ++ [input]) =
          prunedOfRun host inputs ++ prunedOfAdvance host input := by
        simp [prunedOfRun]
      rw [hreported]
      rcases hfound with ⟨later, hlater, hcontinues⟩ | ⟨last, hlast, hends⟩
      · rcases kept_or_pruned hknown.scheduled hadvance hlater with
          ⟨next, hnext, hgoes⟩ | ⟨last, hlast, hends⟩
        · exact Or.inl ⟨next, hnext, hcontinues.trans hgoes⟩
        · exact Or.inr ⟨last, List.mem_append_right _ hlast,
            hcontinues.trans hends.continues, hends.terminal, hends.nested⟩
      · exact Or.inr ⟨last, List.mem_append_left _ hlast, hends⟩
  rcases hinvariant with ⟨⟨ledger, hrecords, htracked⟩, hkept | hpruned⟩
  · exact Or.inl hkept
  · rcases htracked with ⟨other, hother, _, hcontinues⟩ | hclosed
    · exact Or.inl ⟨other, hother, hcontinues⟩
    · exact Or.inr ⟨hpruned, isGone_of_isClosedKey hrecords hclosed⟩

/-!
## A finished iteration

The first of three iterations ends, and its step is pruned.
-/

def bodySuccess : PersistedFact :=
  .sequenced
    { sequence := 7
      occurredAt := 1767225600000
      detail :=
        .outcome (bodyAttempt 0) .succeeded (some (.inline (bodyAttempt 0).attemptId)) none }

def bodyInput : AdvanceWorkflowInput := loopInput loopIterating [bodySuccess] []

theorem pruned_for_good_sample :
    exists plan, advanceWorkflow plainHost bodyInput = Except.ok plan ∧
      IsPruned (runningBody 0) (prunedOfRun plainHost [bodyInput]) ∧
      IsGone plainHost loopExecutable loopVersion (bodyAttempt 0).invocationKey
        plan.checkpoint := by
  have hadvanced : (advanceWorkflow plainHost bodyInput).map (fun plan =>
      decide ((bodyAttempt 0).invocationKey ∈
        plan.checkpoint.invocations.map InvocationState.invocationKey)) = Except.ok false := by
    decide +kernel
  rcases exists_of_map_eq_ok hadvanced with ⟨plan, hplan, hleft⟩
  have hmore : WorkflowContinuation plainHost loopExecutable loopVersion loopIterating
      ([] ++ [bodyInput]) plan.checkpoint :=
    Run.step (Run.start rfl) ⟨rfl, rfl, rfl, plan, hplan, rfl⟩
  have hmem : runningBody 0 ∈ loopIterating.invocations := List.mem_cons_self
  rcases pruned_for_good run_controlInput hmore hmem with
    ⟨later, hlater, hgoes⟩ | hpruned
  · exact absurd (List.mem_map.mpr ⟨later, hlater, hgoes.key⟩) (of_decide_eq_false hleft)
  · exact ⟨plan, hplan, hpruned⟩

end Engine
end Pertexo
