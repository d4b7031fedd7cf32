import Pertexo.Engine.Runs

/-!
# Bookkeeping of loops

## Budgets

The budget of a run is fixed when its checkpoint is created, and every advance
checks that its parts still add up.
-/

namespace Pertexo
namespace Engine

open Library
open Values

variable {executable : CompiledWorkflowExecutable} {ledger : Ledger}

/-- What an advance has checked about the loops of the checkpoint it plans. -/
structure AccountsLoops (budget : Nat) (checkpoint : WorkflowCheckpoint) : Prop where
  loops : forall loop, loop ∈ checkpoint.loops -> loop.IsAccounted
  initial : checkpoint.initialIterationBudget = some budget
  conserved : checkpoint.remainingIterationBudget + checkpoint.retiredIterationBudget.getD 0 +
    totalCollectionSize checkpoint.loops = budget

theorem accountsLoops_created {workflowVersionId : String} {budget : Nat}
    {checkpoint : WorkflowCheckpoint} (h : IsCreated workflowVersionId budget checkpoint) :
    AccountsLoops budget checkpoint := by
  rcases created_eq h with ⟨_, hloops, hremaining, hretired, hinitial⟩
  constructor
  · intro loop hloop
    rw [hloops] at hloop
    cases hloop
  · exact hinitial
  · rw [hloops, hremaining, hretired]
    rfl

theorem accountsLoops_advance {host : EngineHost} {input : AdvanceWorkflowInput} {budget : Nat}
    {plan : WorkflowTransitionPlan}
    (hcheckpoint : ScheduledCheckpoint input.executable ledger input.checkpoint)
    (hinitial : input.checkpoint.initialIterationBudget = some budget)
    (h : advanceWorkflow host input = Except.ok plan) : AccountsLoops budget plan.checkpoint := by
  rcases exists_advancePasses h with ⟨passes⟩
  rcases passes.observed_spec hcheckpoint with ⟨hobserved, hcurrent⟩
  have hextends := (passes.stopped_spec hobserved).right
  rcases exists_planPasses passes.plans with ⟨planned⟩
  have hfrom := parsedFrom_of_parseCheckpoint planned.parsed
  have hkept : plan.checkpoint.initialIterationBudget = some budget := by
    have hsettled : planned.settled.current = passes.checkpoint :=
      planned.same.current.trans (hextends.current.trans hcurrent)
    rw [hfrom.initialIterationBudget]
    show planned.settled.current.initialIterationBudget = some budget
    rw [hsettled, (parsedFrom_of_parseCheckpoint passes.parsed).initialIterationBudget]
    exact hinitial
  exact ⟨hfrom.accounted, hkept, hfrom.budget budget hkept⟩

theorem accountsLoops_of_run {host : EngineHost} {workflowVersionId : String} {budget : Nat}
    {inputs : List AdvanceWorkflowInput} {checkpoint : WorkflowCheckpoint}
    (h : WorkflowRun host executable workflowVersionId budget inputs checkpoint) :
    AccountsLoops budget checkpoint := by
  apply h.invariant fun _ checkpoint => AccountsLoops budget checkpoint
  · intro start hstart
    exact accountsLoops_created hstart
  · rintro inputs _ input _ hrun haccounts ⟨rfl, rfl, rfl, plan, hadvance, rfl⟩
    exact accountsLoops_advance (scheduled_of_run hrun) haccounts.initial hadvance

/-!
## Ordinals

A loop has admitted its ordinals one after the other, and never one of them
twice, whatever happened to it and to the loops around it since.
-/

theorem loop_bookkeeping {host : EngineHost} {workflowVersionId : String} {budget : Nat}
    {inputs : List AdvanceWorkflowInput} {checkpoint : WorkflowCheckpoint}
    (h : WorkflowRun host executable workflowVersionId budget inputs checkpoint) :
    (forall loop, loop ∈ checkpoint.loops ->
      ordinalsOf (admissionsOfRun host inputs) loop.loopId loop.iterationPath =
          List.range loop.nextOrdinal ∧
        loop.nextOrdinal ≤ loop.collectionSize ∧
        loop.activeOrdinals.length ≤ loop.maxConcurrency ∧
        (loop.activeOrdinals ++ loop.terminalOrdinals).Nodup ∧
        forall ordinal, ordinal ∈ loop.activeOrdinals ++ loop.terminalOrdinals ↔
          loop.completedPrefix ≤ ordinal ∧ ordinal < loop.nextOrdinal) ∧
      (forall loopId iterationPath, exists count,
        ordinalsOf (admissionsOfRun host inputs) loopId iterationPath = List.range count) ∧
      checkpoint.remainingIterationBudget + checkpoint.retiredIterationBudget.getD 0 +
        totalCollectionSize checkpoint.loops = budget := by
  have hscheduled := scheduled_of_run h
  have haccounts := accountsLoops_of_run h
  refine ⟨?_, hscheduled.recorded.ordered, haccounts.conserved⟩
  intro loop hloop
  have haccounted := haccounts.loops loop hloop
  exact ⟨hscheduled.recorded.current loop.window (mem_windowsOf hloop),
    haccounted.nextOrdinal_le, haccounted.active_le, haccounted.nodup, haccounted.window⟩

/-!
## A run of a loop

A For Each step over three items, two at a time.
-/

def bodyStep : NodeRecord :=
  { id := "b", definition := { key := "core.step", version := 1 } }

def loopStep : NodeRecord :=
  { id := "loop", definition := { key := "core.foreach", version := 1 } }

def loopExecutable : CompiledWorkflowExecutable :=
  { graph := { nodes := [.forEach loopStep 10 2 [.step bodyStep] []], edges := [] }
    failureRoutes := []
    node_ids_nodup := by decide +kernel
    paired_ancestors := by decide +kernel }

def loopVersion : String := "00000000-0000-1000-8000-000000000001"

def loopAttempt : AttemptReference :=
  { invocationKey := rawInvocationKey loopVersion "loop" [] []
    attemptId := "00000000-0000-1000-8000-0000000000a1"
    attemptNumber := 1 }

def plainHost : EngineHost :=
  { sha256Hex := fun _ => "digest"
    jitteredDelay := fun delay _ => delay
    isRoutableExecutorFailure := fun _ _ => false }

def loopInput (checkpoint : WorkflowCheckpoint) (facts : List PersistedFact)
    (completed : List CompletedOutput) : AdvanceWorkflowInput :=
  { runId := "run"
    executable := loopExecutable
    workflowVersionId := loopVersion
    checkpoint := checkpoint
    observations := facts
    completedOutputs := completed
    occurredAt := 1767225600000
    maximumAdmissions := 10 }

def loopSuccess (sequence : Nat) : PersistedFact :=
  .sequenced
    { sequence := sequence
      occurredAt := 1767225600000
      detail := .outcome loopAttempt .succeeded (some (.inline loopAttempt.attemptId)) none }

def loopOutput (sequence : Nat) : CompletedOutput :=
  { sequence := sequence
    attemptId := loopAttempt.attemptId
    invocationKey := loopAttempt.invocationKey
    value :=
      .object
        [.mk "items" (.array [.null, .null, .null]), .mk "iterationCount" (.number "3")] }

def loopCreated : WorkflowCheckpoint :=
  { workflowVersionId := loopVersion
    revision := 0
    runStatus := .queued
    nextEventSequence := 2
    readySet := []
    admittedInvocationKeys := []
    invocations := []
    joins := []
    loops := []
    remainingIterationBudget := 100
    cancelRequested := false
    deadlineExpired := false
    branchSelections := []
    initialIterationBudget := some 100 }

def loopStarted : WorkflowCheckpoint :=
  { loopCreated with
    revision := 1
    runStatus := .running
    nextEventSequence := 4
    admittedInvocationKeys := [loopAttempt.invocationKey]
    invocations :=
      [{ invocationKey := loopAttempt.invocationKey
         nodeId := "loop"
         status := .running
         attemptNumber := 1 }] }

def startInput : AdvanceWorkflowInput := loopInput loopCreated [] []

def controlInput : AdvanceWorkflowInput := loopInput loopStarted [loopSuccess 4] [loopOutput 4]

theorem run_startInput :
    WorkflowRun plainHost loopExecutable loopVersion 100 [startInput] loopStarted := by
  have hcreated : IsCreated loopVersion 100 loopCreated := ⟨none, by decide +kernel⟩
  have hplanned : (advanceWorkflow plainHost startInput).map WorkflowTransitionPlan.checkpoint =
      Except.ok loopStarted := by
    decide +kernel
  rcases exists_of_map_eq_ok hplanned with ⟨plan, hplan, hcheckpoint⟩
  exact Run.step (Run.start hcreated) ⟨rfl, rfl, rfl, plan, hplan, hcheckpoint⟩

def bodyAttempt (ordinal : Nat) : AttemptReference :=
  { invocationKey := rawInvocationKey loopVersion "b" [] [{ loopNodeId := "loop", ordinal }]
    attemptId := "00000000-0000-1000-8000-0000000000b1"
    attemptNumber := 1 }

def runningBody (ordinal : Nat) : InvocationState :=
  { invocationKey := (bodyAttempt ordinal).invocationKey
    nodeId := "b"
    status := .running
    attemptNumber := 1
    branchPath := some []
    iterationPath := some [{ loopNodeId := "loop", ordinal }] }

def loopIterating : WorkflowCheckpoint :=
  { loopStarted with
    revision := 2
    nextEventSequence := 7
    admittedInvocationKeys :=
      [(bodyAttempt 0).invocationKey, (bodyAttempt 1).invocationKey, loopAttempt.invocationKey]
    invocations :=
      [runningBody 0, runningBody 1,
        { invocationKey := loopAttempt.invocationKey
          nodeId := "loop"
          status := .waiting
          attemptNumber := 1
          output := some (.inline loopAttempt.attemptId) }]
    loops :=
      [{ controlInvocationKey := loopAttempt.invocationKey
         loopId := "loop"
         branchPath := []
         iterationPath := []
         bodyRootNodeIds := ["b"]
         bodySinkNodeId := "b"
         collection := .inline loopAttempt.attemptId
         collectionChecksum := "digest"
         collectionSize := 3
         maxConcurrency := 2
         maxIterations := 10
         nextOrdinal := 2
         completedPrefix := 0
         activeOrdinals := [0, 1]
         terminalOrdinals := []
         terminalStatus := none }]
    remainingIterationBudget := 97 }

theorem planned_controlInput :
    (advanceWorkflow plainHost controlInput).map WorkflowTransitionPlan.checkpoint =
      Except.ok loopIterating := by
  decide +kernel

theorem run_controlInput :
    WorkflowRun plainHost loopExecutable loopVersion 100 [startInput, controlInput]
      loopIterating := by
  rcases exists_of_map_eq_ok planned_controlInput with ⟨plan, hplan, hcheckpoint⟩
  exact Run.step run_startInput ⟨rfl, rfl, rfl, plan, hplan, hcheckpoint⟩

/-- Two of the three iterations run, and the budget is reserved for all of them. -/
theorem loop_bookkeeping_sample :
    exists plan, advanceWorkflow plainHost controlInput = Except.ok plan ∧
      ordinalsOf (admissionsOfRun plainHost [startInput, controlInput]) "loop" [] = [0, 1] ∧
      plan.checkpoint.remainingIterationBudget +
        plan.checkpoint.retiredIterationBudget.getD 0 +
        totalCollectionSize plan.checkpoint.loops = 100 := by
  rcases exists_of_map_eq_ok planned_controlInput with ⟨plan, hplan, hcheckpoint⟩
  have hrun := run_controlInput
  rw [← hcheckpoint] at hrun
  exact ⟨plan, hplan, by decide +kernel, (loop_bookkeeping hrun).right.right⟩

end Engine
end Pertexo
