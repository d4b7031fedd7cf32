import Pertexo.Engine.QuietPasses

/-!
# Admissions of attempts

## One admission

Only a ready invocation is admitted, and it runs as its next attempt.
-/

namespace Pertexo
namespace Engine

open Library
open Values

def runningAttempt (invocation : InvocationState) : InvocationState :=
  { invocation.withStatus .running with attemptNumber := invocation.attemptNumber + 1 }

theorem eq_ready_of_running_mem {status : NodeStatus}
    (h : NodeStatus.running ∈ nodeTransitions status) : status = .ready := by
  revert h
  cases status <;> decide

structure IsAttemptOf (attempt : AttemptAdmissionPlan) (ready : InvocationState) : Prop where
  invocationKey : attempt.invocationKey = ready.invocationKey
  attemptNumber : attempt.attemptNumber = ready.attemptNumber + 1
  status : ready.status = .ready

theorem admitAttempt_spec {progress after : AttemptAdmissions} {key : String}
    (h : admitAttempt progress key = Except.ok after) :
    exists ready attempt, ready ∈ progress.state.invocations ∧ IsAttemptOf attempt ready ∧
      ready.invocationKey = key ∧ attempt.nodeId = ready.nodeId ∧
      after.state = progress.state.setInvocation (runningAttempt ready) ∧
      after.attempts = progress.attempts ++ [attempt] := by
  unfold admitAttempt at h
  split at h
  · exact absurd h fail_ne_ok
  · rename_i ready hget
    rcases exists_of_bind_eq_ok h with ⟨_, hassert, hrest⟩
    rcases exists_of_bind_eq_ok hrest with ⟨_, _, hdone⟩
    cases hdone
    have hready := eq_ready_of_running_mem (assertNodeTransition_eq_ok_iff.mp hassert)
    exact ⟨ready, _, Keyed.mem_of_get? hget, ⟨(Keyed.key_of_get? hget).symm, rfl, hready⟩,
      Keyed.key_of_get? hget, rfl, rfl, rfl⟩

/-!
## The admissions of a plan
-/

/-- Every invocation of the state is admitted once, or it stays as it is. -/
structure AdmitsFrom (state : WorkflowTransition) (progress : AttemptAdmissions) : Prop where
  same : SameScopes state progress.state
  runStatus : progress.state.runStatus = state.runStatus
  nodup : (progress.attempts.map AttemptAdmissionPlan.invocationKey).Nodup
  attempts : forall attempt, attempt ∈ progress.attempts ->
    exists ready, ready ∈ state.invocations ∧ IsAttemptOf attempt ready
  steps : forall attempt, attempt ∈ progress.attempts ->
    exists ready, ready ∈ state.invocations ∧ ready.invocationKey = attempt.invocationKey ∧
      ready.nodeId = attempt.nodeId
  admitted : forall invocation, invocation ∈ state.invocations ->
    invocation.invocationKey ∈ progress.attempts.map AttemptAdmissionPlan.invocationKey ->
    runningAttempt invocation ∈ progress.state.invocations
  kept : forall invocation, invocation ∈ state.invocations ->
    invocation.invocationKey ∉ progress.attempts.map AttemptAdmissionPlan.invocationKey ->
    invocation ∈ progress.state.invocations

theorem AdmitsFrom.start (state : WorkflowTransition) :
    AdmitsFrom state { state := state, attempts := [] } where
  same := SameScopes.refl state
  runStatus := rfl
  nodup := List.nodup_nil
  attempts := by
    intro attempt hattempt
    cases hattempt
  steps := by
    intro attempt hattempt
    cases hattempt
  admitted := by
    intro invocation _ hkey
    cases hkey
  kept := fun _ hmem _ => hmem

theorem AdmitsFrom.unadmitted {state : WorkflowTransition} {progress : AttemptAdmissions}
    (h : AdmitsFrom state progress) {ready : InvocationState}
    (hmem : ready ∈ progress.state.invocations) (hready : ready.status = .ready) :
    ready ∈ state.invocations ∧
      ready.invocationKey ∉ progress.attempts.map AttemptAdmissionPlan.invocationKey := by
  have hscope : ready.scope ∈ state.scopes := by
    rw [← h.same.scopes]
    exact mem_scopesOf hmem
  rcases hscope with ⟨origin, horigin, hsame⟩
  have hkey : origin.invocationKey = ready.invocationKey := congrArg StepScope.key hsame
  by_cases hadmitted :
      origin.invocationKey ∈ progress.attempts.map AttemptAdmissionPlan.invocationKey
  · have hrunning := h.admitted origin horigin hadmitted
    have heq : runningAttempt origin = ready := Keyed.eq_of_mem_of_key_eq hrunning hmem hkey
    rw [← heq] at hready
    cases hready
  · have heq : origin = ready :=
      Keyed.eq_of_mem_of_key_eq (h.kept origin horigin hadmitted) hmem hkey
    rw [heq] at horigin hadmitted
    exact ⟨horigin, hadmitted⟩

theorem AdmitsFrom.step {state : WorkflowTransition} {progress after : AttemptAdmissions}
    {key : String} (h : AdmitsFrom state progress)
    (hstep : admitAttempt progress key = Except.ok after) : AdmitsFrom state after := by
  rcases admitAttempt_spec hstep with
    ⟨ready, attempt, hmem, hattempt, _, hnode, hstate, hattempts⟩
  rcases h.unadmitted hmem hattempt.status with ⟨hready, hfresh⟩
  have hkeys : after.attempts.map AttemptAdmissionPlan.invocationKey =
      progress.attempts.map AttemptAdmissionPlan.invocationKey ++ [ready.invocationKey] := by
    rw [hattempts, List.map_append, List.map_singleton, hattempt.invocationKey]
  constructor
  · rw [hstate]
    exact h.same.trans (SameScopes.setInvocation hmem _ rfl)
  · rw [hstate]
    exact h.runStatus
  · rw [hkeys, List.nodup_append]
    refine ⟨h.nodup, List.nodup_singleton _, ?_⟩
    intro other hother added hadded hsame
    rw [List.mem_singleton.mp hadded] at hsame
    exact hfresh (hsame ▸ hother)
  · intro other hother
    rw [hattempts] at hother
    rcases List.mem_append.mp hother with hold | hnew
    · exact h.attempts other hold
    · rw [List.mem_singleton.mp hnew]
      exact ⟨ready, hready, hattempt⟩
  · intro other hother
    rw [hattempts] at hother
    rcases List.mem_append.mp hother with hold | hnew
    · exact h.steps other hold
    · rw [List.mem_singleton.mp hnew]
      exact ⟨ready, hready, hattempt.invocationKey.symm, hnode.symm⟩
  · intro invocation hinvocation hadmitted
    rw [hkeys] at hadmitted
    rw [hstate]
    rcases List.mem_append.mp hadmitted with hold | hnew
    · refine Keyed.mem_set.mpr (Or.inr ⟨h.admitted invocation hinvocation hold, ?_⟩)
      intro hsame
      have hsame' : invocation.invocationKey = ready.invocationKey := hsame
      exact hfresh (hsame' ▸ hold)
    · have heq : invocation = ready :=
        Keyed.eq_of_mem_of_key_eq hinvocation hready (List.mem_singleton.mp hnew)
      rw [heq]
      exact Keyed.mem_set.mpr (Or.inl rfl)
  · intro invocation hinvocation hother
    rw [hkeys, List.mem_append, not_or] at hother
    rw [hstate]
    refine Keyed.mem_set.mpr (Or.inr ⟨h.kept invocation hinvocation hother.left, ?_⟩)
    intro hsame
    exact hother.right (List.mem_singleton.mpr hsame)

theorem admitsFrom_admitAttempts {state : WorkflowTransition} {keys : List String}
    {admissions : AttemptAdmissions} (h : admitAttempts state keys = Except.ok admissions) :
    AdmitsFrom state admissions := by
  apply foldlM_invariant (AdmitsFrom state) (AdmitsFrom.start state) _ h
  intro key _ progress after hprogress hstep
  exact hprogress.step hstep

inductive Admits (before : InvocationState) : InvocationState -> Prop where
  | kept : Admits before before
  | admitted (hready : before.status = .ready) : Admits before (runningAttempt before)

theorem Admits.continues {before after : InvocationState} (h : Admits before after) :
    Continues before after := by
  cases h with
  | kept => exact Continues.refl before
  | admitted hready =>
      refine ⟨rfl, Nat.le_succ _, ?_, fun _ => Or.inl (Nat.lt_succ_self _)⟩
      rw [hready]
      exact Relation.ReflTransGen.single
        (show NodeStatus.running ∈ nodeTransitions .ready by decide)

theorem Admits.resting {before after : InvocationState} (h : Admits before after)
    (hresting : isRestingStatus before.status = true) : after = before := by
  cases h with
  | kept => rfl
  | admitted hready =>
      rw [hready] at hresting
      cases hresting

theorem AdmitsFrom.keeps {state : WorkflowTransition} {progress : AttemptAdmissions}
    (h : AdmitsFrom state progress) : KeepsInvocations Admits state progress.state := by
  intro invocation hmem
  by_cases hadmitted :
      invocation.invocationKey ∈ progress.attempts.map AttemptAdmissionPlan.invocationKey
  · rcases List.mem_map.mp hadmitted with ⟨attempt, hattempt, hkey⟩
    rcases h.attempts attempt hattempt with ⟨ready, hready, hof⟩
    have heq : ready = invocation :=
      Keyed.eq_of_mem_of_key_eq hready hmem (hof.invocationKey.symm.trans hkey)
    exact ⟨_, h.admitted invocation hmem hadmitted, Admits.admitted (heq ▸ hof.status)⟩
  · exact ⟨_, h.kept invocation hmem hadmitted, Admits.kept⟩

/-!
## The status of the run
-/

theorem resumeWaitingRun_spec (admissions : AttemptAdmissions) :
    (resumeWaitingRun admissions).invocations = admissions.state.invocations ∧
      Quiet admissions.state (resumeWaitingRun admissions) := by
  unfold resumeWaitingRun
  split
  · rename_i hwaiting
    rw [Bool.and_eq_true, beq_iff_eq] at hwaiting
    refine ⟨rfl, Quiet.of_eq rfl rfl rfl rfl ?_⟩
    rw [hwaiting.left]
    exact Relation.ReflTransGen.single
      (show RunStatus.running ∈ runTransitions .waiting by decide)
  · exact ⟨rfl, Quiet.refl _⟩

theorem settleRunStatus_spec {state after : WorkflowTransition} {input : PlanInput}
    (h : settleRunStatus state input = Except.ok after) :
    after.invocations = state.invocations ∧ Quiet state after := by
  unfold settleRunStatus at h
  dsimp only at h
  split at h
  · split at h
    · cases h
      exact ⟨rfl, Quiet.refl state⟩
    · rcases exists_of_bind_eq_ok h with ⟨_, hassert, hafter⟩
      cases hafter
      exact ⟨rfl, Quiet.of_eq rfl rfl rfl rfl
        (Relation.ReflTransGen.single (assertRunTransition_eq_ok_iff.mp hassert))⟩
  · split at h
    · rename_i hrunning
      rw [Bool.and_eq_true, Bool.and_eq_true, beq_iff_eq] at hrunning
      cases h
      refine ⟨rfl, Quiet.of_eq rfl rfl rfl rfl ?_⟩
      rw [hrunning.left.left]
      exact Relation.ReflTransGen.single
        (show RunStatus.waiting ∈ runTransitions .running by decide)
    · cases h
      exact ⟨rfl, Quiet.refl state⟩

/-- The intermediate states of a plan. -/
structure PlanPasses (state : WorkflowTransition) (input : PlanInput)
    (plan : WorkflowTransitionPlan) where
  admittedKeys : List String
  admissions : AttemptAdmissions
  settled : WorkflowTransition
  nextEventSequence : Nat
  admissible : admissibleKeys state input = Except.ok admittedKeys
  admits : admitAttempts state admittedKeys = Except.ok admissions
  settles : settleRunStatus (resumeWaitingRun admissions) input = Except.ok settled
  parsed : parseCheckpoint
      (plannedCheckpoint settled (pruneFinishedIterations settled) admittedKeys
        nextEventSequence) =
    Except.ok plan.checkpoint
  attempts : plan.attempts = admissions.attempts

theorem exists_planPasses {state : WorkflowTransition} {input : PlanInput}
    {plan : WorkflowTransitionPlan}
    (h : buildWorkflowTransitionPlan state input = Except.ok plan) :
    Nonempty (PlanPasses state input plan) := by
  unfold buildWorkflowTransitionPlan at h
  rcases exists_of_bind_eq_ok h with ⟨admittedKeys, hadmissible, hrest⟩
  rcases exists_of_bind_eq_ok hrest with ⟨admissions, hadmissions, hrest⟩
  rcases exists_of_bind_eq_ok hrest with ⟨settled, hsettled, hplan⟩
  unfold planFromSettled at hplan
  rcases exists_of_bind_eq_ok hplan with ⟨checkpoint, hcheckpoint, hrest⟩
  rcases exists_of_bind_eq_ok hrest with ⟨nodeRunAdmissions, _, hrest⟩
  rcases exists_of_bind_eq_ok hrest with ⟨immediateContinuation, _, hdone⟩
  cases hdone
  exact ⟨{
    admittedKeys := admittedKeys
    admissions := admissions
    settled := settled
    nextEventSequence := _
    admissible := hadmissible
    admits := hadmissions
    settles := hsettled
    parsed := hcheckpoint
    attempts := rfl }⟩

namespace PlanPasses

variable {state : WorkflowTransition} {input : PlanInput} {plan : WorkflowTransitionPlan}

theorem admitsFrom (passes : PlanPasses state input plan) :
    AdmitsFrom state passes.admissions :=
  admitsFrom_admitAttempts passes.admits

theorem invocations (passes : PlanPasses state input plan) :
    passes.settled.invocations = passes.admissions.state.invocations :=
  (settleRunStatus_spec passes.settles).left.trans
    (resumeWaitingRun_spec passes.admissions).left

theorem same (passes : PlanPasses state input plan) : SameScopes state passes.settled :=
  (passes.admitsFrom.same.trans (resumeWaitingRun_spec passes.admissions).right.toSameScopes).trans
    (settleRunStatus_spec passes.settles).right.toSameScopes

theorem keeps (passes : PlanPasses state input plan) :
    KeepsInvocations Admits state passes.settled := by
  have hkeeps := passes.admitsFrom.keeps
  intro invocation hmem
  rw [passes.invocations]
  exact hkeeps invocation hmem

end PlanPasses

end Engine
end Pertexo
