import Pertexo.Engine.CoordinatedDeclarations
import Pertexo.Library.Runs

/-!
# Runs of a workflow

## The passes of an advance
-/

namespace Pertexo
namespace Engine

open Library
open Values

variable {executable : CompiledWorkflowExecutable} {ledger : Ledger}

/-- The intermediate states of an advance that returned its plan. -/
structure AdvancePasses (host : EngineHost) (input : AdvanceWorkflowInput)
    (plan : WorkflowTransitionPlan) where
  checkpoint : WorkflowCheckpoint
  coordinated : CoordinatedObservations
  observed : WorkflowTransition
  handled : WorkflowTransition
  derived : WorkflowTransition
  advanced : WorkflowTransition
  stopped : WorkflowTransition
  parsed : parseCheckpoint input.checkpoint = Except.ok checkpoint
  version : checkpoint.workflowVersionId = input.workflowVersionId
  coordinates : coordinateObservations host input checkpoint = Except.ok coordinated
  prepares : prepareAdvance host input = Except.ok (schedulerInput input checkpoint coordinated)
  observes :
    applyWorkflowObservations (initialTransition (schedulerInput input checkpoint coordinated))
      coordinated.persisted.dueResumptions (allObservations coordinated) input.occurredAt =
      Except.ok observed
  handles : settleFailureHandlers observed input.occurredAt = Except.ok handled
  derives :
    deriveReadinessAndJoins handled
      (coordinatorNodeIdsOf (schedulerInput input checkpoint coordinated)) input.occurredAt =
      Except.ok derived
  precedes : stateBeforeLoops (schedulerInput input checkpoint coordinated) = Except.ok derived
  advances : advanceLoopIterations derived input.occurredAt = Except.ok advanced
  stops : applyWorkflowStops advanced input.occurredAt = Except.ok stopped
  plans :
    buildWorkflowTransitionPlan stopped (planInputOf (schedulerInput input checkpoint coordinated))
      = Except.ok plan

theorem exists_advancePasses {host : EngineHost} {input : AdvanceWorkflowInput}
    {plan : WorkflowTransitionPlan} (h : advanceWorkflow host input = Except.ok plan) :
    Nonempty (AdvancePasses host input plan) := by
  rcases exists_of_bind_eq_ok h with ⟨prepared, hprepared, hadvance⟩
  rcases exists_of_bind_eq_ok hprepared with ⟨checkpoint, hparsed, hrest⟩
  rcases exists_of_bind_eq_ok hrest with ⟨_, hversion, hrest⟩
  rcases exists_of_bind_eq_ok hrest with ⟨_, _, hrest⟩
  rcases exists_of_bind_eq_ok hrest with ⟨coordinated, hcoordinated, hdone⟩
  cases hdone
  rcases exists_of_bind_eq_ok hadvance with ⟨_, _, hrest⟩
  rcases exists_of_bind_eq_ok hrest with ⟨derived, hbefore, hrest⟩
  rcases exists_of_bind_eq_ok hrest with ⟨advanced, hadvanced, hrest⟩
  rcases exists_of_bind_eq_ok hrest with ⟨stopped, hstopped, hplan⟩
  rcases exists_of_bind_eq_ok hbefore with ⟨observed, hobserved, hrest⟩
  rcases exists_of_bind_eq_ok hrest with ⟨handled, hhandled, hderived⟩
  unfold assertIdentity at hversion
  rw [assertThat_eq_ok_iff] at hversion
  exact ⟨{
    checkpoint := checkpoint
    coordinated := coordinated
    observed := observed
    handled := handled
    derived := derived
    advanced := advanced
    stopped := stopped
    parsed := hparsed
    version := eq_of_beq hversion
    coordinates := hcoordinated
    prepares := hprepared
    observes := hobserved
    handles := hhandled
    derives := hderived
    precedes := hbefore
    advances := hadvanced
    stops := hstopped
    plans := hplan }⟩

/-- The iterations an advance admits, read off the state its loop pass starts from. -/
def admissionsOfAdvance (host : EngineHost) (input : AdvanceWorkflowInput) : AdmissionLog :=
  match prepareAdvance host input with
  | Except.error _ => []
  | Except.ok prepared =>
      match stateBeforeLoops prepared with
      | Except.error _ => []
      | Except.ok derived => iterationAdmissions derived

theorem AdvancePasses.admissions {host : EngineHost} {input : AdvanceWorkflowInput}
    {plan : WorkflowTransitionPlan} (passes : AdvancePasses host input plan) :
    admissionsOfAdvance host input = iterationAdmissions passes.derived := by
  unfold admissionsOfAdvance
  rw [passes.prepares]
  dsimp only
  rw [passes.precedes]

theorem scheduled_initialTransition {input : AdvanceWorkflowInput}
    {source checkpoint : WorkflowCheckpoint} {coordinated : CoordinatedObservations}
    (hparsed : ParsedFrom source checkpoint)
    (hcheckpoint : ScheduledCheckpoint input.executable ledger checkpoint) :
    ScheduledState input.executable ledger
      (initialTransition (schedulerInput input checkpoint coordinated)) where
  records := by
    have hinvocations := Keyed.ofList_items hparsed.invocations_nodup
    have hloops := Keyed.ofList_items hparsed.loops_nodup
    simp only [initialTransition, schedulerInput]
    rw [hinvocations, hloops]
    exact hcheckpoint
  graph := rfl

theorem scopes_initialTransition {input : AdvanceFromSchedulerInput}
    (hnodup : (input.checkpoint.invocations.map InvocationState.invocationKey).Nodup) :
    (initialTransition input).scopes = scopesOf input.checkpoint.invocations := by
  have hitems := Keyed.ofList_items hnodup
  simp only [WorkflowTransition.scopes, initialTransition]
  rw [hitems]

def AdvancePasses.initial {host : EngineHost} {input : AdvanceWorkflowInput}
    {plan : WorkflowTransitionPlan} (passes : AdvancePasses host input plan) :
    WorkflowTransition :=
  initialTransition (schedulerInput input passes.checkpoint passes.coordinated)

/-- The due timers resume, and then the facts extend the records. -/
theorem AdvancePasses.started_spec {host : EngineHost} {input : AdvanceWorkflowInput}
    {plan : WorkflowTransitionPlan} (passes : AdvancePasses host input plan)
    (hcheckpoint : ScheduledCheckpoint input.executable ledger input.checkpoint) :
    exists started, SameScopes passes.initial started ∧
      KeepsInvocations Resumes passes.initial started ∧
      ScheduledState input.executable ledger passes.observed ∧
      Extends started passes.observed := by
  have hparsed := hcheckpoint.parse passes.parsed
  have hfrom := parsedFrom_of_parseCheckpoint passes.parsed
  have hinitial : ScheduledState input.executable ledger
      (initialTransition (schedulerInput input passes.checkpoint passes.coordinated)) :=
    scheduled_initialTransition hfrom hparsed
  have hfits := observations_fit hparsed passes.coordinates
  rcases exists_of_bind_eq_ok passes.observes with ⟨resumed, hresumed, hobserved⟩
  rcases resumptions_spec hresumed with ⟨hsame, hresumes⟩
  have hstarted := hinitial.of_sameScopes hsame
  have hscopes : (startRun resumed input.occurredAt).scopes =
      scopesOf passes.checkpoint.invocations := by
    rw [hsame.scopes]
    exact scopes_initialTransition hfrom.invocations_nodup
  have hobservations : forall observation,
      observation ∈ allObservations passes.coordinated ->
      ObservationFits input.executable
        (startRun resumed input.occurredAt).current.workflowVersionId
        (startRun resumed input.occurredAt).scopes observation := by
    intro observation hmem
    rw [hscopes, hsame.current]
    exact hfits observation hmem
  rcases scheduled_applyObservations hstarted hobservations hobserved with ⟨hstate, hextends⟩
  exact ⟨startRun resumed input.occurredAt, hsame, hresumes, hstate, hextends⟩

theorem AdvancePasses.observed_spec {host : EngineHost} {input : AdvanceWorkflowInput}
    {plan : WorkflowTransitionPlan} (passes : AdvancePasses host input plan)
    (hcheckpoint : ScheduledCheckpoint input.executable ledger input.checkpoint) :
    ScheduledState input.executable ledger passes.observed ∧
      passes.observed.current = passes.checkpoint := by
  rcases passes.started_spec hcheckpoint with ⟨started, hsame, _, hstate, hextends⟩
  exact ⟨hstate, hextends.current.trans hsame.current⟩

theorem AdvancePasses.stopped_spec {host : EngineHost} {input : AdvanceWorkflowInput}
    {plan : WorkflowTransitionPlan} (passes : AdvancePasses host input plan)
    (hobserved : ScheduledState input.executable ledger passes.observed) :
    ScheduledState input.executable
      (ledger.record (admissionsOfAdvance host input)) passes.stopped ∧
      Extends passes.observed passes.stopped := by
  have hhandles := quiet_settleFailureHandlers passes.handles
  have hhandled := hobserved.of_sameScopes hhandles.toSameScopes
  rcases scheduled_deriveReadinessAndJoins hhandled passes.derives with ⟨hderived, hderives⟩
  rcases scheduled_advanceLoopIterations hderived passes.advances with ⟨hadvanced, hadvances⟩
  have hterminal : forall loop, loop ∈ passes.advanced.loops -> forall status,
      loop.terminalStatus = some status -> isLoopTerminalStatus status = true :=
    fun loop hloop => (hadvanced.records.fits loop hloop).terminalStatus
  have hstops := quiet_applyWorkflowStops hterminal passes.stops
  rw [passes.admissions]
  constructor
  · exact hadvanced.of_sameScopes hstops.toSameScopes
  · exact ((hhandles.extends.trans hderives).trans hadvances).trans hstops.extends

/-- An advance keeps the records scheduled, and its ledger follows that of the run. -/
theorem scheduled_advanceWorkflow {host : EngineHost} {input : AdvanceWorkflowInput}
    {plan : WorkflowTransitionPlan}
    (hcheckpoint : ScheduledCheckpoint input.executable ledger input.checkpoint)
    (h : advanceWorkflow host input = Except.ok plan) :
    ScheduledCheckpoint input.executable (ledger.record (admissionsOfAdvance host input))
      plan.checkpoint := by
  rcases exists_advancePasses h with ⟨passes⟩
  have hobserved := (passes.observed_spec hcheckpoint).left
  exact scheduled_buildWorkflowTransitionPlan (passes.stopped_spec hobserved).left passes.plans

/-!
## Runs

Every advance reads the checkpoint that the one before it has planned.
-/

def IsCreated (workflowVersionId : String) (budget : Nat) (checkpoint : WorkflowCheckpoint) :
    Prop :=
  exists nextEventSequence,
    createCheckpoint workflowVersionId budget nextEventSequence = Except.ok checkpoint

structure Advances (host : EngineHost) (executable : CompiledWorkflowExecutable)
    (workflowVersionId : String) (before : WorkflowCheckpoint) (input : AdvanceWorkflowInput)
    (after : WorkflowCheckpoint) : Prop where
  checkpoint : input.checkpoint = before
  executable : input.executable = executable
  workflowVersionId : input.workflowVersionId = workflowVersionId
  advanced : exists plan, advanceWorkflow host input = Except.ok plan ∧ plan.checkpoint = after

abbrev WorkflowRun (host : EngineHost) (executable : CompiledWorkflowExecutable)
    (workflowVersionId : String) (budget : Nat) :
    List AdvanceWorkflowInput -> WorkflowCheckpoint -> Prop :=
  Run (IsCreated workflowVersionId budget) (Advances host executable workflowVersionId)

def admissionsOfRun (host : EngineHost) (inputs : List AdvanceWorkflowInput) : AdmissionLog :=
  inputs.flatMap (admissionsOfAdvance host)

theorem created_eq {workflowVersionId : String} {budget : Nat} {checkpoint : WorkflowCheckpoint}
    (h : IsCreated workflowVersionId budget checkpoint) :
    checkpoint.invocations = [] ∧ checkpoint.loops = [] ∧
      checkpoint.remainingIterationBudget = budget ∧
      checkpoint.retiredIterationBudget = none ∧
      checkpoint.initialIterationBudget = some budget := by
  rcases h with ⟨nextEventSequence, hcreated⟩
  unfold createCheckpoint at hcreated
  rcases exists_of_bind_eq_ok hcreated with ⟨_, _, hrest⟩
  rcases exists_of_bind_eq_ok hrest with ⟨_, _, hrest⟩
  rcases exists_of_bind_eq_ok hrest with ⟨_, _, hdone⟩
  cases hdone
  exact ⟨rfl, rfl, rfl, rfl, rfl⟩

theorem scheduled_created {checkpoint : WorkflowCheckpoint}
    (hinvocations : checkpoint.invocations = []) (hloops : checkpoint.loops = []) :
    ScheduledCheckpoint executable { admissions := [], left := ∅ } checkpoint := by
  have hscopes : scopesOf checkpoint.invocations = ∅ := by
    rw [hinvocations]
    ext scope
    constructor
    · rintro ⟨_, hmem, _⟩
      cases hmem
    · intro hmem
      cases hmem
  have hwindows : windowsOf checkpoint.loops = ∅ := by
    rw [hloops]
    ext window
    constructor
    · rintro ⟨_, hmem, _⟩
      cases hmem
    · intro hmem
      cases hmem
  unfold ScheduledCheckpoint
  constructor
  · rw [hscopes, hwindows]
    exact wellScoped_empty
  · intro scope hscope
    rw [hscopes] at hscope
    cases hscope
  · rw [hwindows]
    exact recorded_empty
  · intro loop hloop
    rw [hloops] at hloop
    cases hloop

/-- The records of every reachable checkpoint are scheduled under the ledger of the run. -/
theorem scheduled_of_run {host : EngineHost} {workflowVersionId : String} {budget : Nat}
    {inputs : List AdvanceWorkflowInput} {checkpoint : WorkflowCheckpoint}
    (h : WorkflowRun host executable workflowVersionId budget inputs checkpoint) :
    ScheduledCheckpoint executable { admissions := admissionsOfRun host inputs, left := ∅ }
      checkpoint := by
  apply h.invariant fun inputs checkpoint =>
    ScheduledCheckpoint executable { admissions := admissionsOfRun host inputs, left := ∅ }
      checkpoint
  · intro start hstart
    rcases created_eq hstart with ⟨hinvocations, hloops, _⟩
    exact scheduled_created hinvocations hloops
  · rintro inputs _ input _ _ hscheduled ⟨rfl, rfl, rfl, plan, hadvance, rfl⟩
    have hnext := scheduled_advanceWorkflow hscheduled hadvance
    have hlog : admissionsOfRun host (inputs ++ [input]) =
        admissionsOfRun host inputs ++ admissionsOfAdvance host input := by
      simp [admissionsOfRun]
    rw [hlog]
    exact hnext

end Engine
end Pertexo
