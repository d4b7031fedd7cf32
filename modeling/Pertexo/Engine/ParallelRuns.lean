import Pertexo.Engine.ParallelConcurrency

/-!
# Parallel steps in a run

## What a plan keeps

Pruning and reading the planned checkpoint keep every invocation that is not
terminal, in its scope and with its status.
-/

namespace Pertexo
namespace Engine

open Library
open Values

theorem not_pruned_of_unsettled {state : WorkflowTransition} {invocation : InvocationState}
    (hmem : invocation ∈ state.invocations)
    (hstatus : isTerminalNodeStatus invocation.status = false) :
    invocation.invocationKey ∉ prunedKeysOf state.invocations.items state.loops.items := by
  intro hpruned
  unfold prunedKeysOf at hpruned
  rcases List.mem_flatMap.mp hpruned with ⟨loop, _, hkeys⟩
  rcases List.mem_flatMap.mp hkeys with ⟨ordinal, _, hkey⟩
  rcases mem_finishedOwnerKeys.mp hkey with ⟨hterminal, owner, howner, howns, hsame⟩
  have heq : owner = invocation := Keyed.eq_of_mem_of_key_eq howner hmem hsame
  rw [heq] at howns
  have hsettled := hterminal invocation hmem howns
  rw [hstatus] at hsettled
  cases hsettled

namespace PlanPasses

variable {state : WorkflowTransition} {input : PlanInput} {plan : WorkflowTransitionPlan}

theorem mem_checkpoint (passes : PlanPasses state input plan) {invocation : InvocationState}
    (hmem : invocation ∈ passes.settled.invocations)
    (hstatus : isTerminalNodeStatus invocation.status = false) :
    invocation.normalizeScope ∈ plan.checkpoint.invocations := by
  refine (parsedFrom_of_parseCheckpoint passes.parsed).mem_iff.mpr ⟨invocation, ?_, rfl⟩
  refine List.mem_filter.mpr ⟨hmem, ?_⟩
  simpa using not_pruned_of_unsettled hmem hstatus

theorem exists_settled (passes : PlanPasses state input plan) {invocation : InvocationState}
    (hmem : invocation ∈ plan.checkpoint.invocations) :
    exists source, source ∈ passes.settled.invocations ∧
      source.normalizeScope = invocation := by
  rcases (parsedFrom_of_parseCheckpoint passes.parsed).mem_iff.mp hmem with
    ⟨source, hsource, hnormalized⟩
  exact ⟨source, (List.mem_filter.mp hsource).left, hnormalized⟩

theorem keepsRunning (passes : PlanPasses state input plan) :
    KeepsRunning passes.settled.invocations.items plan.checkpoint.invocations := by
  intro invocation hmem hrunning
  rcases passes.exists_settled hmem with ⟨source, hsource, rfl⟩
  refine ⟨source, hsource, (normalizeScope_scope source).symm, ?_⟩
  rw [← (normalizeScope_eq source).right.right.left]
  exact hrunning

theorem running_kept (passes : PlanPasses state input plan) :
    KeepsRunning plan.checkpoint.invocations passes.settled.invocations.items := by
  intro invocation hmem hrunning
  have hstatus : isTerminalNodeStatus invocation.status = false := by
    rw [hrunning]
    rfl
  refine ⟨_, passes.mem_checkpoint hmem hstatus, normalizeScope_scope invocation, ?_⟩
  rw [(normalizeScope_eq invocation).right.right.left]
  exact hrunning

theorem runningUnder_checkpoint (passes : PlanPasses state input plan)
    (nodes : SchedulerNodeLookup) (cap : ParallelConstraint) :
    runningUnder nodes plan.checkpoint.invocations cap =
      runningUnder nodes passes.settled.invocations.items cap := by
  apply Nat.le_antisymm
  · exact runningUnder_le passes.keepsRunning
      (parsedFrom_of_parseCheckpoint passes.parsed).invocations_nodup cap
  · exact runningUnder_le passes.running_kept passes.settled.invocations.nodup cap

theorem exists_loop (passes : PlanPasses state input plan) {loop : LoopState}
    (hloop : loop ∈ state.loops) {control : InvocationState}
    (hcontrol : control ∈ passes.settled.invocations)
    (hkey : loop.controlInvocationKey = control.invocationKey)
    (hstatus : isTerminalNodeStatus control.status = false) :
    exists narrow, narrow ∈ plan.checkpoint.loops ∧
      narrow.controlInvocationKey = control.invocationKey := by
  rcases passes.same.narrowed loop hloop with ⟨settled, hsettled, hnarrow⟩
  have hsame : settled.controlInvocationKey = loop.controlInvocationKey := hnarrow.window.key
  have hmem : pruneLoop (pruneFinishedIterations passes.settled).invocations settled ∈
      (pruneFinishedIterations passes.settled).loops := by
    apply List.mem_map_of_mem
    refine List.mem_filter.mpr ⟨hsettled, ?_⟩
    rw [hsame, hkey]
    simpa using not_pruned_of_unsettled hcontrol hstatus
  rcases (parsedFrom_of_parseCheckpoint passes.parsed).records.narrowed _ hmem with
    ⟨narrow, hparsed, hread⟩
  have hown : narrow.controlInvocationKey = settled.controlInvocationKey := hread.window.key
  exact ⟨narrow, hparsed, (hown.trans hsame).trans hkey⟩

end PlanPasses

/-!
## One advance
-/

theorem KeepsRunning.trans {first second third : List InvocationState}
    (h : KeepsRunning first second) (h' : KeepsRunning second third) :
    KeepsRunning first third := by
  intro invocation hmem hrunning
  rcases h' invocation hmem hrunning with ⟨middle, hmiddle, hscope, hruns⟩
  rcases h middle hmiddle hruns with ⟨origin, horigin, hsame, hran⟩
  exact ⟨origin, horigin, hsame.trans hscope, hran⟩

theorem ParsedFrom.keepsRunning {source parsed : WorkflowCheckpoint}
    (h : ParsedFrom source parsed) : KeepsRunning source.invocations parsed.invocations := by
  intro invocation hmem hrunning
  rcases h.mem_iff.mp hmem with ⟨origin, horigin, rfl⟩
  refine ⟨origin, horigin, (normalizeScope_scope origin).symm, ?_⟩
  rw [← (normalizeScope_eq origin).right.right.left]
  exact hrunning

variable {executable : CompiledWorkflowExecutable} {ledger : Ledger}

section

variable {host : EngineHost} {input : AdvanceWorkflowInput} {plan : WorkflowTransitionPlan}

/-- What runs before the admissions of an advance has run in the checkpoint it reads. -/
theorem AdvancePasses.keepsRunning (passes : AdvancePasses host input plan)
    (hcheckpoint : ScheduledCheckpoint input.executable ledger input.checkpoint) :
    KeepsRunning input.checkpoint.invocations passes.stopped.invocations.items := by
  apply (parsedFrom_of_parseCheckpoint passes.parsed).keepsRunning.trans
  intro invocation hmem hrunning
  rcases (passes.runsFrom hcheckpoint).running invocation hmem hrunning with
    ⟨origin, horigin, hscope, hran⟩
  exact ⟨origin, passes.mem_initial.mp horigin, hscope, hran⟩

theorem AdvancePasses.admitsUnderCaps (passes : AdvancePasses host input plan)
    (planned : passes.Planned)
    (hcheckpoint : ScheduledCheckpoint input.executable ledger input.checkpoint)
    (hcaps : HoldsCaps (indexTransitionNodes (schedulerState input.executable))
      input.checkpoint.invocations) :
    AdmitsUnderCaps passes.stopped
      (planInputOf (schedulerInput input passes.checkpoint passes.coordinated))
      planned.admissions := by
  apply Engine.admitsUnderCaps _ planned.admissible planned.admits
  rw [passes.schedulerNodes_stopped hcheckpoint]
  exact hcaps.keep (passes.keepsRunning hcheckpoint) passes.stopped.invocations.nodup

theorem AdvancePasses.not_ready_of_stopped (passes : AdvancePasses host input plan)
    (planned : passes.Planned)
    (hcheckpoint : ScheduledCheckpoint input.executable ledger plan.checkpoint)
    (hstop : (passes.stopped.cancelRequested || passes.stopped.deadlineExpired) = true)
    {ready : InvocationState} (hmem : ready ∈ plan.checkpoint.invocations) :
    ready.status ≠ .ready := by
  intro hready
  have hparsed := parsedFrom_of_parseCheckpoint planned.parsed
  rcases planned.exists_settled hmem with ⟨source, hsource, rfl⟩
  rw [(normalizeScope_eq source).right.right.left] at hready
  have hadmissions : source ∈ planned.admissions.state.invocations := by
    rw [← planned.invocations]
    exact hsource
  have hstopped := (planned.admitsFrom.unadmitted hadmissions hready).left
  rcases controls_of_ready hstop passes.stops hstopped hready with ⟨loop, hloop, hkey⟩
  have hstatus : isTerminalNodeStatus source.status = false := by
    rw [hready]
    rfl
  rcases planned.exists_loop hloop hsource hkey hstatus with ⟨narrow, hnarrow, hcontrol⟩
  rcases hparsed.controls narrow hnarrow with ⟨parent, hparent, hparentKey, hconsistent⟩
  have hsame : parent = source.normalizeScope := by
    apply List.inj_on_of_nodup_map hparsed.invocations_nodup hparent hmem
    rw [hparentKey, hcontrol, (normalizeScope_eq source).left]
  apply not_ready_of_consistent (hcheckpoint.fits narrow hnarrow).terminalStatus hconsistent
  rw [hsame, (normalizeScope_eq source).right.right.left]
  exact hready

structure AdvancesUnderCaps (input : AdvanceWorkflowInput) (plan : WorkflowTransitionPlan) :
    Prop where
  caps : HoldsCaps (indexTransitionNodes (schedulerState input.executable))
    plan.checkpoint.invocations
  length : plan.attempts.length ≤ input.maximumAdmissions
  slot : input.hasExecutionSlot = false -> plan.attempts = []
  settled : input.hasExecutionSlot = true ->
    forall ready, ready ∈ plan.checkpoint.invocations -> ready.status = .ready ->
      plan.attempts.length = input.maximumAdmissions ∨
        exists cap,
          cap ∈ capsOf (indexTransitionNodes (schedulerState input.executable)) ready ∧
          runningUnder (indexTransitionNodes (schedulerState input.executable))
              plan.checkpoint.invocations cap =
            capLimit (indexTransitionNodes (schedulerState input.executable)) cap

theorem advancesUnderCaps
    (hcheckpoint : ScheduledCheckpoint input.executable ledger input.checkpoint)
    (hcaps : HoldsCaps (indexTransitionNodes (schedulerState input.executable))
      input.checkpoint.invocations)
    (h : advanceWorkflow host input = Except.ok plan) : AdvancesUnderCaps input plan := by
  rcases exists_advancePasses h with ⟨passes⟩
  rcases exists_planPasses passes.plans with ⟨planned⟩
  have hadmits := passes.admitsUnderCaps planned hcheckpoint hcaps
  have hparsed := parsedFrom_of_parseCheckpoint planned.parsed
  have hnodes := passes.schedulerNodes_stopped hcheckpoint
  have hheld := hadmits.caps
  rw [hnodes, ← planned.invocations] at hheld
  refine ⟨hheld.keep planned.keepsRunning hparsed.invocations_nodup, ?_, ?_, ?_⟩
  · rw [planned.attempts]
    exact hadmits.length
  · intro hslot
    rw [planned.attempts]
    exact hadmits.slot hslot
  · intro hslot ready hmem hready
    cases hstop : passes.stopped.cancelRequested || passes.stopped.deadlineExpired with
    | true =>
        have hplanned := scheduled_advanceWorkflow hcheckpoint h
        exact absurd hready (passes.not_ready_of_stopped planned hplanned hstop hmem)
    | false =>
        rw [Bool.or_eq_false_iff] at hstop
        rcases planned.exists_settled hmem with ⟨source, hsource, rfl⟩
        rw [(normalizeScope_eq source).right.right.left] at hready
        have hadmissions : source ∈ planned.admissions.state.invocations := by
          rw [← planned.invocations]
          exact hsource
        rcases planned.admitsFrom.unadmitted hadmissions hready with ⟨hstopped, hleft⟩
        rcases hadmits.settled hslot hstop.left hstop.right source hstopped hready with
          hadmitted | hmaximum | ⟨cap, hcap, hfull⟩
        · exact absurd hadmitted hleft
        · rw [planned.attempts]
          exact Or.inl hmaximum
        · refine Or.inr ⟨cap, ?_, ?_⟩
          · rw [capsOf_of_scope (normalizeScope_scope source), ← hnodes]
            exact hcap
          · rw [planned.runningUnder_checkpoint, planned.invocations, ← hnodes]
            exact hfull

end

/-!
## The running invocations inside a Parallel step
-/

theorem eq_record_of_schedulerEntry {node : ExecutableNode} {entry : SchedulerNodeEntry}
    (hnode : node ∈ executionNodes executable)
    (h : (indexTransitionNodes (schedulerState executable)).get? node.record.id = some entry) :
    entry.node = node.record := by
  rcases exists_node_of_schedulerNode h with ⟨found, hfound, hrecord⟩
  have hown := Keyed.get?_of_mem (mem_nodesById.mpr hnode)
  rw [hfound, Option.some.injEq] at hown
  rw [← hrecord, hown]

/-- A cap counts the running invocations inside its Parallel step, up to the step's maximum. -/
theorem runningInside_eq {workflowVersionId : String} {invocations : List InvocationState}
    (haddressed : forall invocation, invocation ∈ invocations ->
      IsAddress executable workflowVersionId invocation.scope)
    (hreads : ReadsRunning (indexTransitionNodes (schedulerState executable)) invocations)
    {node : ExecutableNode} (hnode : node ∈ executionNodes executable) {maximum : Nat}
    (hmaximum : configuredParallelMaxConcurrency node.record = some maximum)
    {parallel : ParallelConstraint} (hparallel : parallel.nodeId = node.record.id) :
    runningInside executable parallel invocations =
        runningUnder (indexTransitionNodes (schedulerState executable)) invocations parallel ∧
      capLimit (indexTransitionNodes (schedulerState executable)) parallel = maximum := by
  rcases exists_schedulerEntry hnode with ⟨entry, hentry⟩
  have hrecord := eq_record_of_schedulerEntry hnode hentry
  rw [← hparallel] at hentry
  rw [← hrecord] at hmaximum
  constructor
  · apply List.countP_congr
    intro invocation hmem
    rw [countsAgainst, Bool.and_eq_true, Bool.and_eq_true, List.contains_iff_mem]
    constructor
    · rintro ⟨hrunning, hinside⟩
      rcases hreads invocation hmem (eq_of_beq hrunning) with ⟨limits, hlimits⟩
      exact ⟨hrunning, (mem_capsOf_iff (haddressed invocation hmem) hlimits).mpr
        ⟨hinside, entry, maximum, hentry, hmaximum⟩⟩
    · rintro ⟨hrunning, hcap⟩
      rcases hreads invocation hmem (eq_of_beq hrunning) with ⟨limits, hlimits⟩
      exact ⟨hrunning, ((mem_capsOf_iff (haddressed invocation hmem) hlimits).mp hcap).left⟩
  · rw [capLimit, hentry]
    show (configuredParallelMaxConcurrency entry.node).getD 0 = maximum
    rw [hmaximum]
    rfl

theorem exists_parallel_of_mem_capsOf {workflowVersionId : String} {invocation : InvocationState}
    (haddress : IsAddress executable workflowVersionId invocation.scope)
    {cap : ParallelConstraint}
    (h : cap ∈ capsOf (indexTransitionNodes (schedulerState executable)) invocation) :
    isInsideParallel executable cap invocation = true ∧
      exists node maximum, node ∈ executionNodes executable ∧
        configuredParallelMaxConcurrency node.record = some maximum ∧
        cap.nodeId = node.record.id := by
  cases hlimits : parallelLimits (indexTransitionNodes (schedulerState executable)) invocation with
  | error e =>
      rw [capsOf, hlimits] at h
      cases h
  | ok limits =>
      rcases (mem_capsOf_iff haddress hlimits).mp h with
        ⟨hinside, entry, maximum, hentry, hmaximum⟩
      rcases exists_node_of_schedulerNode hentry with ⟨node, hnode, hrecord⟩
      rcases Keyed.get?_eq_some_iff.mp hnode with ⟨hmem, hid⟩
      rw [← hrecord] at hmaximum
      exact ⟨hinside, node, maximum, mem_nodesById.mp hmem, hmaximum, hid.symm⟩

/-!
## Runs
-/

structure RunsUnderCaps (executable : CompiledWorkflowExecutable) (workflowVersionId : String)
    (checkpoint : WorkflowCheckpoint) : Prop where
  records : exists ledger, RunRecords executable workflowVersionId ledger checkpoint
  caps : HoldsCaps (indexTransitionNodes (schedulerState executable)) checkpoint.invocations

theorem RunsUnderCaps.addressed {workflowVersionId : String} {checkpoint : WorkflowCheckpoint}
    (h : RunsUnderCaps executable workflowVersionId checkpoint) :
    forall invocation, invocation ∈ checkpoint.invocations ->
      IsAddress executable workflowVersionId invocation.scope := by
  rcases h.records with ⟨ledger, hrecords⟩
  intro invocation hmem
  rw [← hrecords.version]
  exact hrecords.scheduled.addressed _ (mem_scopesOf hmem)

theorem RunsUnderCaps.advance {host : EngineHost} {input : AdvanceWorkflowInput}
    {plan : WorkflowTransitionPlan}
    (h : RunsUnderCaps input.executable input.workflowVersionId input.checkpoint)
    (hadvance : advanceWorkflow host input = Except.ok plan) :
    RunsUnderCaps input.executable input.workflowVersionId plan.checkpoint := by
  rcases h.records with ⟨ledger, hrecords⟩
  rcases exists_advanceRecords hrecords.scheduled hadvance with ⟨_, _, hadvanced⟩
  exact ⟨⟨_, hadvanced.planned⟩, (advancesUnderCaps hrecords.scheduled h.caps hadvance).caps⟩

theorem runsUnderCaps_of_run {host : EngineHost} {workflowVersionId : String} {budget : Nat}
    {inputs : List AdvanceWorkflowInput} {checkpoint : WorkflowCheckpoint}
    (h : WorkflowRun host executable workflowVersionId budget inputs checkpoint) :
    RunsUnderCaps executable workflowVersionId checkpoint := by
  apply h.invariant fun _ checkpoint => RunsUnderCaps executable workflowVersionId checkpoint
  · intro start hstart
    refine ⟨⟨_, runRecords_created hstart⟩, ?_⟩
    rw [(created_eq hstart).left]
    exact holdsCaps_nil
  · rintro inputs _ input _ _ hcaps ⟨rfl, rfl, rfl, plan, hadvance, rfl⟩
    exact hcaps.advance hadvance

/-- What is ready in the planned checkpoint has found the plan or a Parallel step full. -/
def LeavesOutWhenFull (input : AdvanceWorkflowInput) (plan : WorkflowTransitionPlan) : Prop :=
  forall ready, ready ∈ plan.checkpoint.invocations -> ready.status = .ready ->
    plan.attempts.length = input.maximumAdmissions ∨
      exists node maximum parallel, node ∈ executionNodes input.executable ∧
        configuredParallelMaxConcurrency node.record = some maximum ∧
        parallel.nodeId = node.record.id ∧
        isInsideParallel input.executable parallel ready = true ∧
        runningInside input.executable parallel plan.checkpoint.invocations = maximum

theorem leavesOutWhenFull {host : EngineHost} {input : AdvanceWorkflowInput}
    {plan : WorkflowTransitionPlan}
    (h : RunsUnderCaps input.executable input.workflowVersionId input.checkpoint)
    (hadvance : advanceWorkflow host input = Except.ok plan)
    (hslot : input.hasExecutionSlot = true) : LeavesOutWhenFull input plan := by
  intro ready hmem hready
  rcases h.records with ⟨ledger, hrecords⟩
  have hafter := h.advance hadvance
  rcases (advancesUnderCaps hrecords.scheduled h.caps hadvance).settled hslot ready hmem hready
    with hmaximum | ⟨cap, hcap, hfull⟩
  · exact Or.inl hmaximum
  · rcases exists_parallel_of_mem_capsOf (hafter.addressed ready hmem) hcap with
      ⟨hinside, node, maximum, hnode, hmaximum, hid⟩
    rcases runningInside_eq hafter.addressed hafter.caps.reads hnode hmaximum hid with
      ⟨hcount, hlimit⟩
    refine Or.inr ⟨node, maximum, cap, hnode, hmaximum, hid, hinside, ?_⟩
    rw [hcount, hfull, hlimit]

/-- No Parallel step of a run is over its maximum, and no plan leaves out more than it has to. -/
theorem parallel_concurrency {host : EngineHost} {workflowVersionId : String} {budget : Nat}
    {inputs : List AdvanceWorkflowInput} {checkpoint : WorkflowCheckpoint}
    (h : WorkflowRun host executable workflowVersionId budget inputs checkpoint) :
    (forall node maximum parallel, node ∈ executionNodes executable ->
        configuredParallelMaxConcurrency node.record = some maximum ->
        parallel.nodeId = node.record.id ->
        runningInside executable parallel checkpoint.invocations ≤ maximum) ∧
      forall input plan, input.checkpoint = checkpoint -> input.executable = executable ->
        input.workflowVersionId = workflowVersionId ->
        advanceWorkflow host input = Except.ok plan ->
        plan.attempts.length ≤ input.maximumAdmissions ∧
          (input.hasExecutionSlot = false -> plan.attempts = []) ∧
          (input.hasExecutionSlot = true -> LeavesOutWhenFull input plan) := by
  have hcaps := runsUnderCaps_of_run h
  constructor
  · intro node maximum parallel hnode hmaximum hid
    rcases runningInside_eq hcaps.addressed hcaps.caps.reads hnode hmaximum hid with
      ⟨hcount, hlimit⟩
    rw [hcount, ← hlimit]
    exact hcaps.caps.within parallel
  · rintro input plan rfl rfl rfl hadvance
    rcases hcaps.records with ⟨ledger, hrecords⟩
    have hadvanced := advancesUnderCaps hrecords.scheduled hcaps.caps hadvance
    exact ⟨hadvanced.length, hadvanced.slot, leavesOutWhenFull hcaps hadvance⟩

/-!
## Two branches, one at a time

The first advance runs the Parallel step. The second one starts a branch, and
leaves the other one ready.
-/

def parallelStep : NodeRecord :=
  { id := "p"
    definition := { key := "core.parallel", version := 1 }
    control := some (.parallel
      { branches := ["branch-01", "branch-02"]
        maxConcurrency := 1
        branches_known := by decide
        branches_nodup := by decide
        two_le_branches := by decide
        one_le_maxConcurrency := by decide
        maxConcurrency_le := by decide }) }

def branchStep (nodeId : String) : ExecutableNode :=
  .step { id := nodeId, definition := { key := "core.step", version := 1 } }

def branchEdge (id outputPort nodeId : String) : WorkflowEdge :=
  { id := id
    source := { nodeId := "p", port := outputPort }
    target := { nodeId := nodeId, port := "in" } }

def parallelExecutable : CompiledWorkflowExecutable :=
  { graph :=
      { nodes := [.step parallelStep, branchStep "a", branchStep "b"]
        edges := [branchEdge "e1" "branch-01" "a", branchEdge "e2" "branch-02" "b"] }
    failureRoutes := []
    node_ids_nodup := by decide +kernel
    paired_ancestors := by decide +kernel }

def parallelAttempt : AttemptReference :=
  { invocationKey := rawInvocationKey loopVersion "p" [] []
    attemptId := "00000000-0000-1000-8000-0000000000a1"
    attemptNumber := 1 }

def parallelSuccess : PersistedFact :=
  .sequenced
    { sequence := 4
      occurredAt := 1767225600000
      detail := .outcome parallelAttempt .succeeded (some (.inline parallelAttempt.attemptId))
        none }

def parallelOutput : CompletedOutput :=
  { sequence := 4
    attemptId := parallelAttempt.attemptId
    invocationKey := parallelAttempt.invocationKey
    value :=
      .object [.mk "branchIds" (.array [.string "branch-01", .string "branch-02"])] }

def parallelStarted : WorkflowCheckpoint :=
  { loopCreated with
    revision := 1
    runStatus := .running
    nextEventSequence := 4
    admittedInvocationKeys := [parallelAttempt.invocationKey]
    invocations :=
      [{ invocationKey := parallelAttempt.invocationKey
         nodeId := "p"
         status := .running
         attemptNumber := 1 }] }

def parallelStartInput : AdvanceWorkflowInput :=
  { loopInput loopCreated [] [] with executable := parallelExecutable }

def branchesInput : AdvanceWorkflowInput :=
  { loopInput parallelStarted [parallelSuccess] [parallelOutput] with
    executable := parallelExecutable }

def parallelCap : ParallelConstraint :=
  { nodeId := "p", branchPrefix := [], iterationPrefix := [] }

/-- One of the two branches runs, and the other one has found the Parallel step full. -/
theorem parallel_concurrency_sample :
    exists plan, advanceWorkflow plainHost branchesInput = Except.ok plan ∧
      plan.attempts.length = 1 ∧
      runningInside parallelExecutable parallelCap plan.checkpoint.invocations = 1 ∧
      LeavesOutWhenFull branchesInput plan := by
  have hcreated : IsCreated loopVersion 100 loopCreated := ⟨none, by decide +kernel⟩
  have hplanned : (advanceWorkflow plainHost parallelStartInput).map
      WorkflowTransitionPlan.checkpoint = Except.ok parallelStarted := by
    decide +kernel
  rcases exists_of_map_eq_ok hplanned with ⟨first, hfirst, hcheckpoint⟩
  have hrun : WorkflowRun plainHost parallelExecutable loopVersion 100 [parallelStartInput]
      parallelStarted :=
    Run.step (Run.start hcreated) ⟨rfl, rfl, rfl, first, hfirst, hcheckpoint⟩
  have hadvanced : (advanceWorkflow plainHost branchesInput).map (fun plan =>
      (plan.attempts.length,
        runningInside parallelExecutable parallelCap plan.checkpoint.invocations)) =
      Except.ok (1, 1) := by
    decide +kernel
  rcases exists_of_map_eq_ok hadvanced with ⟨plan, hplan, hcounts⟩
  rcases Prod.ext_iff.mp hcounts with ⟨hattempts, hrunning⟩
  have hkept := (parallel_concurrency hrun).right branchesInput plan rfl rfl rfl hplan
  exact ⟨plan, hplan, hattempts, hrunning, hkept.right.right rfl⟩

/-- Without an execution slot, a ready step is left out though nothing is full. -/
theorem leaves_out_without_slot :
    ¬ forall inputs checkpoint,
      WorkflowRun plainHost parallelExecutable loopVersion 100 inputs checkpoint ->
      forall input plan, input.checkpoint = checkpoint ->
        input.executable = parallelExecutable -> input.workflowVersionId = loopVersion ->
        advanceWorkflow plainHost input = Except.ok plan -> LeavesOutWhenFull input plan := by
  intro h
  have hcreated : IsCreated loopVersion 100 loopCreated := ⟨none, by decide +kernel⟩
  have hadvanced : (advanceWorkflow plainHost
      { parallelStartInput with hasExecutionSlot := false }).map (fun plan =>
      (plan.attempts.length, plan.checkpoint.invocations)) =
      Except.ok (0,
        [{ invocationKey := parallelAttempt.invocationKey
           nodeId := "p"
           status := .ready
           attemptNumber := 0 }]) := by
    decide +kernel
  rcases exists_of_map_eq_ok hadvanced with ⟨plan, hplan, hcounts⟩
  rcases Prod.ext_iff.mp hcounts with ⟨hattempts, hinvocations⟩
  dsimp only at hattempts hinvocations
  have hleft := h [] loopCreated (Run.start hcreated) _ plan rfl rfl rfl hplan
  unfold LeavesOutWhenFull at hleft
  rw [hinvocations, hattempts] at hleft
  rcases hleft _ (List.mem_singleton_self _) rfl with
    hmaximum | ⟨_, _, parallel, _, _, _, hinside, _⟩
  · cases hmaximum
  · simp [isInsideParallel] at hinside

end Engine
end Pertexo
