import Pertexo.Engine.Attempts
import Pertexo.Engine.LoopBookkeeping

/-!
# Admission discipline of a run

## Admitted attempts
-/

namespace Pertexo
namespace Engine

open Library
open Values

variable {executable : CompiledWorkflowExecutable} {ledger : Ledger}

/-- The attempts an advance admits, by invocation and attempt number. -/
def attemptsOfAdvance (host : EngineHost) (input : AdvanceWorkflowInput) :
    List (String × Nat) :=
  match advanceWorkflow host input with
  | Except.error _ => []
  | Except.ok plan =>
      plan.attempts.map fun attempt => (attempt.invocationKey, attempt.attemptNumber)

def attemptsOfRun (host : EngineHost) (inputs : List AdvanceWorkflowInput) :
    List (String × Nat) :=
  inputs.flatMap (attemptsOfAdvance host)

def stateBeforeAdmissions (host : EngineHost) (input : AdvanceWorkflowInput) :
    EngineResult WorkflowTransition := do
  let prepared ← prepareAdvance host input
  let derived ← stateBeforeLoops prepared
  let advanced ← advanceLoopIterations derived input.occurredAt
  applyWorkflowStops advanced input.occurredAt

def isTerminalRunStatus (status : RunStatus) : Bool :=
  (runTransitions status).isEmpty

theorem RunChanges.of_terminal {source target : RunStatus} (h : RunChanges source target)
    (hterminal : isTerminalRunStatus source = true) : target = source := by
  induction h with
  | refl => rfl
  | tail _ hstep ih =>
      rw [isTerminalRunStatus, List.isEmpty_iff] at hterminal
      rw [ih, hterminal] at hstep
      cases hstep

theorem AdvancePasses.beforeAdmissions {host : EngineHost} {input : AdvanceWorkflowInput}
    {plan : WorkflowTransitionPlan} (passes : AdvancePasses host input plan) :
    stateBeforeAdmissions host input = Except.ok passes.stopped := by
  unfold stateBeforeAdmissions
  rw [passes.prepares]
  show (stateBeforeLoops _ >>= fun derived => advanceLoopIterations derived input.occurredAt >>=
    fun advanced => applyWorkflowStops advanced input.occurredAt) = _
  rw [passes.precedes]
  show (advanceLoopIterations passes.derived input.occurredAt >>=
    fun advanced => applyWorkflowStops advanced input.occurredAt) = _
  rw [passes.advances]
  exact passes.stops

/-- An attempt is admitted from a ready invocation, as its next attempt. -/
theorem admitted_from_ready {host : EngineHost} {input : AdvanceWorkflowInput}
    {plan : WorkflowTransitionPlan} (h : advanceWorkflow host input = Except.ok plan) :
    exists state, stateBeforeAdmissions host input = Except.ok state ∧
      (plan.attempts.map AttemptAdmissionPlan.invocationKey).Nodup ∧
      forall attempt, attempt ∈ plan.attempts ->
        exists ready, ready ∈ state.invocations ∧ IsAttemptOf attempt ready := by
  rcases exists_advancePasses h with ⟨passes⟩
  rcases exists_planPasses passes.plans with ⟨planned⟩
  have hadmits := planned.admitsFrom
  rw [planned.attempts]
  exact ⟨passes.stopped, passes.beforeAdmissions, hadmits.nodup, hadmits.attempts⟩

/-!
## At most once

Every attempt that a run has admitted is not above the attempt number of its
invocation, or the path of the invocation is closed.
-/

theorem attemptNumber_of_admitted {input : AdvanceWorkflowInput} {before : List InvocationState}
    {attempts : List AttemptAdmissionPlan} {settled : WorkflowTransition}
    (h : SettledRecords input ledger before attempts settled) {attempt : AttemptAdmissionPlan}
    (hattempt : attempt ∈ attempts) :
    attempt.attemptNumber = attemptNumberOf before attempt.invocationKey + 1 := by
  rcases h.admitted attempt hattempt with ⟨invocation, hmem, hkey, hnumber⟩
  have hcount : admissionCount attempts attempt.invocationKey = 1 :=
    List.count_eq_one_of_mem h.nodup (List.mem_map_of_mem hattempt)
  have hcounted := h.counted invocation hmem
  rw [hkey, hcount, hnumber] at hcounted
  exact hcounted

theorem mem_attemptsOfAdvance {host : EngineHost} {input : AdvanceWorkflowInput}
    {plan : WorkflowTransitionPlan} (h : advanceWorkflow host input = Except.ok plan)
    {pair : String × Nat} :
    pair ∈ attemptsOfAdvance host input ↔
      exists attempt, attempt ∈ plan.attempts ∧
        (attempt.invocationKey, attempt.attemptNumber) = pair := by
  unfold attemptsOfAdvance
  rw [h]
  exact List.mem_map

theorem nodup_attemptsOfAdvance {host : EngineHost} {input : AdvanceWorkflowInput}
    {plan : WorkflowTransitionPlan} (h : advanceWorkflow host input = Except.ok plan)
    (hnodup : (plan.attempts.map AttemptAdmissionPlan.invocationKey).Nodup) :
    (attemptsOfAdvance host input).Nodup := by
  unfold attemptsOfAdvance
  rw [h]
  apply List.Nodup.of_map Prod.fst
  rw [List.map_map]
  exact hnodup

structure AdmitsOnce (host : EngineHost) (executable : CompiledWorkflowExecutable)
    (workflowVersionId : String) (inputs : List AdvanceWorkflowInput) (ledger : Ledger)
    (checkpoint : WorkflowCheckpoint) : Prop where
  records : RunRecords executable workflowVersionId ledger checkpoint
  nodup : (attemptsOfRun host inputs).Nodup
  tracked : forall pair, pair ∈ attemptsOfRun host inputs ->
    Tracked executable workflowVersionId ledger.left checkpoint.invocations pair.fst
      fun invocation => pair.snd ≤ invocation.attemptNumber

theorem attemptsOfRun_append (host : EngineHost) (inputs : List AdvanceWorkflowInput)
    (input : AdvanceWorkflowInput) :
    attemptsOfRun host (inputs ++ [input]) =
      attemptsOfRun host inputs ++ attemptsOfAdvance host input := by
  simp [attemptsOfRun]

theorem AdmitsOnce.fresh {host : EngineHost} {inputs : List AdvanceWorkflowInput}
    {input : AdvanceWorkflowInput} {plan : WorkflowTransitionPlan} {settled : WorkflowTransition}
    {paths : Set IterationPath}
    (h : AdmitsOnce host input.executable input.workflowVersionId inputs ledger input.checkpoint)
    (hadvanced : AdvanceRecords host input ledger plan settled paths)
    {attempt : AttemptAdmissionPlan} (hattempt : attempt ∈ plan.attempts) :
    (attempt.invocationKey, attempt.attemptNumber) ∉ attemptsOfRun host inputs := by
  intro hknown
  have hnumber := attemptNumber_of_admitted hadvanced.records hattempt
  rcases h.tracked _ hknown with ⟨invocation, hmem, hkey, hle⟩ | ⟨scope, haddress, hkey, hleft⟩
  · have hown := attemptNumberOf_of_mem h.records.nodup hmem
    rw [hkey] at hown
    dsimp only at hown hle
    omega
  · -- the admitted invocation would be on a closed path
    rcases hadvanced.records.admitted attempt hattempt with ⟨invocation, hmem, hsame, _⟩
    have hscheduled := hadvanced.records.scheduled.records
    have hown := hscheduled.addressed invocation.scope (mem_scopesOf hmem)
    rw [hadvanced.records.version] at hown
    have hpath := (haddress.eq_of_key_eq hown (hkey.trans hsame.symm)).right
    rw [hpath] at hleft
    exact hscheduled.not_left hmem hleft

theorem AdmitsOnce.advance {host : EngineHost} {inputs : List AdvanceWorkflowInput}
    {input : AdvanceWorkflowInput} {plan : WorkflowTransitionPlan}
    (h : AdmitsOnce host input.executable input.workflowVersionId inputs ledger input.checkpoint)
    (hadvance : advanceWorkflow host input = Except.ok plan) :
    exists next, AdmitsOnce host input.executable input.workflowVersionId (inputs ++ [input]) next
      plan.checkpoint := by
  rcases exists_advanceRecords h.records.scheduled hadvance with ⟨settled, paths, hadvanced⟩
  refine ⟨_, hadvanced.planned, ?_, ?_⟩
  · rw [attemptsOfRun_append, List.nodup_append]
    refine ⟨h.nodup, nodup_attemptsOfAdvance hadvance hadvanced.records.nodup, ?_⟩
    intro pair hpair other hother hsame
    rcases (mem_attemptsOfAdvance hadvance).mp hother with ⟨attempt, hattempt, rfl⟩
    exact h.fresh hadvanced hattempt (hsame ▸ hpair)
  · intro pair hpair
    have hstable : forall a b, Continues a b -> pair.snd ≤ a.attemptNumber ->
        pair.snd ≤ b.attemptNumber := by
      intro a b hcontinues hle
      exact hle.trans hcontinues.attempts
    rw [attemptsOfRun_append] at hpair
    rcases List.mem_append.mp hpair with hold | hnew
    · exact hadvanced.tracks hstable (h.tracked pair hold)
    · rcases (mem_attemptsOfAdvance hadvance).mp hnew with ⟨attempt, hattempt, rfl⟩
      rcases hadvanced.records.admitted attempt hattempt with ⟨invocation, hmem, hkey, hnumber⟩
      have htracked := hadvanced.tracked _ hstable invocation hmem hnumber.ge
      rw [hkey] at htracked
      exact htracked

theorem admitsOnce_of_run {host : EngineHost} {workflowVersionId : String} {budget : Nat}
    {inputs : List AdvanceWorkflowInput} {checkpoint : WorkflowCheckpoint}
    (h : WorkflowRun host executable workflowVersionId budget inputs checkpoint) :
    exists ledger, AdmitsOnce host executable workflowVersionId inputs ledger checkpoint := by
  apply h.invariant fun inputs checkpoint =>
    exists ledger, AdmitsOnce host executable workflowVersionId inputs ledger checkpoint
  · intro start hstart
    refine ⟨_, runRecords_created hstart, List.nodup_nil, ?_⟩
    intro pair hpair
    cases hpair
  · rintro inputs _ input _ _ ⟨ledger, honce⟩ ⟨rfl, rfl, rfl, plan, hadvance, rfl⟩
    exact honce.advance hadvance

/-!
## The discipline
-/

/-- What one advance does to the attempts and statuses of a checkpoint. -/
structure FollowsDiscipline (host : EngineHost) (input : AdvanceWorkflowInput)
    (plan : WorkflowTransitionPlan) : Prop where
  /-- An admission happens only from ready, and counts the attempt up by one. -/
  admitted : exists state, stateBeforeAdmissions host input = Except.ok state ∧
    forall attempt, attempt ∈ plan.attempts ->
      exists ready, ready ∈ state.invocations ∧ IsAttemptOf attempt ready
  counted : forall invocation, invocation ∈ plan.checkpoint.invocations ->
    invocation.attemptNumber =
      attemptNumberOf input.checkpoint.invocations invocation.invocationKey +
        admissionCount plan.attempts invocation.invocationKey
  once : (plan.attempts.map AttemptAdmissionPlan.invocationKey).Nodup
  changes : forall invocation, invocation ∈ input.checkpoint.invocations ->
    forall later, later ∈ plan.checkpoint.invocations ->
      later.invocationKey = invocation.invocationKey ->
      NodeChanges invocation.status later.status ∧
        (invocation.status = .running -> later.status = .running ∨
          later.status ∈ nodeTransitions .running)

theorem followsDiscipline {host : EngineHost} {input : AdvanceWorkflowInput}
    {plan : WorkflowTransitionPlan}
    (hcheckpoint : ScheduledCheckpoint input.executable ledger input.checkpoint)
    (h : advanceWorkflow host input = Except.ok plan) : FollowsDiscipline host input plan := by
  rcases exists_advanceRecords hcheckpoint h with ⟨settled, paths, hadvanced⟩
  rcases admitted_from_ready h with ⟨state, hstate, hnodup, hadmitted⟩
  refine ⟨⟨state, hstate, hadmitted⟩, ?_, hnodup, ?_⟩
  · intro invocation hmem
    rcases hadvanced.origin invocation hmem with ⟨source, hsource, rfl⟩
    rcases normalizeScope_eq source with ⟨hkey, hattempt, _⟩
    rw [hkey, hattempt]
    exact hadvanced.records.counted source hsource
  · intro invocation hmem later hlater hkey
    rcases hadvanced.origin later hlater with ⟨source, hsource, rfl⟩
    rcases normalizeScope_eq source with ⟨hsourceKey, _, hstatus, _⟩
    rcases hadvanced.records.kept invocation hmem with ⟨kept, hkept, hcontinues, hrunning⟩
    have heq : kept = source := by
      apply Keyed.eq_of_mem_of_key_eq hkept hsource
      exact hcontinues.key.trans (hkey.symm.trans hsourceKey)
    rw [heq] at hcontinues hrunning
    rw [hstatus]
    exact ⟨hcontinues.changes, hrunning⟩

/-- An attempt is admitted at most once, from ready, and terminal statuses absorb. -/
theorem admission_discipline {host : EngineHost} {workflowVersionId : String} {budget : Nat}
    {inputs : List AdvanceWorkflowInput} {before : WorkflowCheckpoint}
    (h : WorkflowRun host executable workflowVersionId budget inputs before) :
    (attemptsOfRun host inputs).Nodup ∧
      (forall input plan, input.checkpoint = before -> input.executable = executable ->
        input.workflowVersionId = workflowVersionId ->
        advanceWorkflow host input = Except.ok plan -> FollowsDiscipline host input plan) ∧
      forall more after,
        WorkflowContinuation host executable workflowVersionId before more after ->
        (forall invocation, invocation ∈ before.invocations ->
          isTerminalNodeStatus invocation.status = true ->
          forall later, later ∈ after.invocations ->
            later.invocationKey = invocation.invocationKey ->
            later.status = invocation.status) ∧
        (isTerminalRunStatus before.runStatus = true -> after.runStatus = before.runStatus) := by
  rcases admitsOnce_of_run h with ⟨ledger, honce⟩
  refine ⟨honce.nodup, ?_, ?_⟩
  · rintro input plan rfl rfl rfl hadvance
    exact followsDiscipline honce.records.scheduled hadvance
  · intro more after hmore
    rcases continues_of_run h hmore with ⟨hchanges, hcontinues⟩
    constructor
    · intro invocation hmem hterminal later hlater hkey
      exact (hcontinues invocation hmem later hlater hkey).changes.of_terminal hterminal
    · exact hchanges.of_terminal

/-- The control step runs its first attempt, and the next advance keeps the discipline. -/
theorem admission_discipline_sample :
    attemptsOfRun plainHost [startInput] = [(loopAttempt.invocationKey, 1)] ∧
      (attemptsOfRun plainHost [startInput]).Nodup ∧
      exists plan, advanceWorkflow plainHost controlInput = Except.ok plan ∧
        plan.attempts.length = 2 ∧ FollowsDiscipline plainHost controlInput plan := by
  have hadvanced : (advanceWorkflow plainHost controlInput).map
      (fun plan => plan.attempts.length) = Except.ok 2 := by
    decide +kernel
  rcases exists_of_map_eq_ok hadvanced with ⟨plan, hplan, hlength⟩
  rcases admission_discipline run_startInput with ⟨hnodup, hstep, _⟩
  exact ⟨by decide +kernel, hnodup, plan, hplan, hlength, hstep controlInput plan rfl rfl rfl hplan⟩

end Engine
end Pertexo
