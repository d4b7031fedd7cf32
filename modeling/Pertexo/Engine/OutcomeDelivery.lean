import Pertexo.Engine.Attempts
import Pertexo.Engine.LoopBookkeeping
import Pertexo.Engine.LoopDeclarations

/-!
# Delivery of attempt outcomes

## Invocations that wait for their outcome
-/

namespace Pertexo
namespace Engine

open Library
open Values

variable {executable : CompiledWorkflowExecutable} {ledger : Ledger}

/-- The invocation of the key has settled its attempt. -/
def Rests (invocationKey : String) (state : WorkflowTransition) : Prop :=
  exists invocation, invocation ∈ state.invocations ∧
    invocation.invocationKey = invocationKey ∧ isRestingStatus invocation.status = true

/-- The invocation of the key runs and waits for nothing else, or it has settled. -/
def Awaits (invocationKey : String) (state : WorkflowTransition) : Prop :=
  exists invocation, invocation ∈ state.invocations ∧
    invocation.invocationKey = invocationKey ∧
    (isRestingStatus invocation.status = true ∨
      (invocation.status = .running ∧ invocation.waitKind = none))

theorem Rests.progress {invocationKey : String} {before after : WorkflowTransition}
    (hprogress : KeepsInvocations Progresses before after) (h : Rests invocationKey before) :
    Rests invocationKey after := by
  rcases h with ⟨invocation, hmem, rfl, hresting⟩
  rcases hprogress invocation hmem with ⟨kept, hkept, hrelated⟩
  exact ⟨kept, hkept, hrelated.key, hrelated.resting hresting⟩

theorem Awaits.progress {invocationKey : String} {before after : WorkflowTransition}
    (hprogress : KeepsInvocations Progresses before after) (h : Awaits invocationKey before) :
    Awaits invocationKey after := by
  rcases h with ⟨invocation, hmem, rfl, hresting | ⟨hrunning, hkind⟩⟩
  · rcases hprogress invocation hmem with ⟨kept, hkept, hrelated⟩
    exact ⟨kept, hkept, hrelated.key, Or.inl (hrelated.resting hresting)⟩
  · rcases hprogress invocation hmem with ⟨kept, hkept, hrelated⟩
    refine ⟨kept, hkept, hrelated.key, ?_⟩
    rcases hrelated.running hrunning with hresting | ⟨hstill, hsame⟩
    · exact Or.inl hresting
    · exact Or.inr ⟨hstill, hsame.trans hkind⟩

/-- The fact settles the running attempt of the invocation. -/
def SettlesAttempt (invocationKey : String) : WorkflowObservation -> Prop
  | .outcome fact => fact.invocationKey = invocationKey
  | .callStarted declared => declared = invocationKey
  | .taskStarted declared => declared = invocationKey
  | .loopStarted fact => fact.controlInvocationKey = invocationKey
  | _ => False

theorem rests_applyTerminalObservation {state after : WorkflowTransition}
    {existing : InvocationState} {observation : OutcomeObservation} {occurredAt : Timestamp}
    (hexisting : existing ∈ state.invocations)
    (hterminal : isTerminalNodeStatus observation.status = true)
    (h : applyTerminalObservation state existing observation occurredAt = Except.ok after) :
    Rests existing.invocationKey after := by
  rcases applyTerminalObservation_cases h with
    ⟨rfl, hsettled⟩ | ⟨_, drafted, hdrafted, hafter⟩
  · exact ⟨existing, hexisting, rfl, isRestingStatus_of_terminal hsettled⟩
  · have hstored : settledInvocation existing observation ∈ drafted.invocations := by
      rcases hdrafted with rfl | ⟨draft, rfl⟩
      · exact Keyed.mem_set.mpr (Or.inl rfl)
      · exact Keyed.mem_set.mpr (Or.inl rfl)
    have hrests : Rests existing.invocationKey drafted :=
      ⟨_, hstored, rfl, isRestingStatus_of_terminal hterminal⟩
    rcases hafter with rfl | ⟨failure, hselected⟩
    · exact hrests
    · exact hrests.progress (quiet_selectFailureHandler hstored hselected).progress

/-- A declaration settles the attempt, unless its wait is already the declared one. -/
theorem rests_applyDeclarationStart {state after : WorkflowTransition}
    {existing : InvocationState} {waitKind : WaitKind} {occurredAt : Timestamp}
    (hexisting : existing ∈ state.invocations)
    (hawaits : Awaits existing.invocationKey state)
    (h : applyDeclarationStart state existing waitKind occurredAt = Except.ok after) :
    Rests existing.invocationKey after := by
  rcases hawaits with ⟨invocation, hmem, hkey, hstatus⟩
  have heq : invocation = existing := Keyed.eq_of_mem_of_key_eq hmem hexisting hkey
  rw [heq] at hstatus
  unfold applyDeclarationStart at h
  split at h
  · rename_i hterminal
    cases h
    exact ⟨existing, hexisting, rfl, isRestingStatus_of_terminal hterminal⟩
  · split at h
    · rename_i hkind
      cases h
      rcases hstatus with hresting | ⟨_, hnone⟩
      · exact ⟨existing, hexisting, rfl, hresting⟩
      · rw [hnone] at hkind
        cases hkind
    · rcases exists_of_bind_eq_ok h with ⟨_, _, hafter⟩
      cases hafter
      exact ⟨_, Keyed.mem_set.mpr (Or.inl rfl), rfl, rfl⟩

/-!
## Loops along a batch

Every loop of a state follows a loop that the batch has read, with the ordinals
the batch has finished, or it was declared in the batch.
-/

def FollowsLoops (loops : List LoopState) (state : WorkflowTransition) : Prop :=
  forall loop, loop ∈ state.loops ->
    (exists source, source ∈ loops ∧ Follows loop source) ∨ loop.IsFresh

theorem FollowsLoops.of_eq {loops : List LoopState} {before after : WorkflowTransition}
    (h : FollowsLoops loops before) (hloops : after.loops = before.loops) :
    FollowsLoops loops after := by
  intro loop hloop
  rw [hloops] at hloop
  exact h loop hloop

theorem isFinishedIterationScope_of_follows {loops : List LoopState} {state : WorkflowTransition}
    (h : FollowsLoops loops state) {branchPath : Option BranchPath}
    {iterationPath : Option IterationPath}
    (hfinished : isFinishedIterationScope state.loops.items branchPath iterationPath = true) :
    isFinishedIterationScope loops branchPath iterationPath = true := by
  unfold isFinishedIterationScope at hfinished ⊢
  rcases List.any_eq_true.mp hfinished with ⟨loop, hloop, hfinishes⟩
  rw [List.any_eq_true]
  rcases h loop hloop with ⟨source, hsource, hfollows⟩ | hfresh
  · exact ⟨source, hsource, loopFinishesScope_follows hfollows hfinishes⟩
  · unfold loopFinishesScope at hfinishes
    split at hfinishes
    · cases hfinishes
    · rw [hfresh.completedPrefix, hfresh.terminalOrdinals] at hfinishes
      simp at hfinishes

theorem follows_finishOrdinal_of_follows {fact : LoopIterationCompletedObservation}
    {loop source : LoopState} (h : Follows loop source) :
    Follows (finishOrdinal fact loop) (finishOrdinal fact source) := by
  by_cases hkey : loop.controlInvocationKey = fact.controlInvocationKey
  · rw [finishOrdinal_of_key hkey, finishOrdinal_of_key (h.controlInvocationKey.symm.trans hkey)]
    refine ⟨h.controlInvocationKey, h.loopId, h.branchPath, h.iterationPath, h.completedPrefix, ?_⟩
    intro ordinal hmem
    rcases List.mem_append.mp hmem with hold | hnew
    · exact List.mem_append_left _ (h.terminal ordinal hold)
    · exact List.mem_append_right _ hnew
  · have hsame : finishOrdinal fact loop = loop := by
      rw [finishOrdinal, if_neg]
      simpa using hkey
    rw [hsame]
    exact h.trans (follows_finishOrdinal fact source)

theorem followsLoops_completion {loops : List LoopState} {state after : WorkflowTransition}
    {fact : LoopIterationCompletedObservation} {occurredAt : Timestamp}
    (h : FollowsLoops loops state)
    (hafter : applyLoopCompletion state fact occurredAt = Except.ok after) :
    FollowsLoops (loops.map (finishOrdinal fact)) after := by
  have hkept : forall loop, loop ∈ state.loops ->
      (exists source, source ∈ loops.map (finishOrdinal fact) ∧ Follows loop source) ∨
        loop.IsFresh := by
    intro loop hloop
    rcases h loop hloop with ⟨source, hsource, hfollows⟩ | hfresh
    · exact Or.inl ⟨_, List.mem_map_of_mem hsource,
        hfollows.trans (follows_finishOrdinal fact source)⟩
    · exact Or.inr hfresh
  rcases (loops_applyLoopCompletion hafter).right with
    hloops | ⟨loop, settled, hloop, hactive, hkey, hsettled, hloops⟩
  · intro other hother
    rw [hloops] at hother
    exact hkept other hother
  · intro other hother
    rw [hloops] at hother
    rcases Keyed.mem_set.mp hother with rfl | ⟨hold, _⟩
    · rcases h loop hloop with ⟨source, hsource, hfollows⟩ | hfresh
      · exact Or.inl ⟨_, List.mem_map_of_mem hsource,
          hsettled.trans (follows_finishOrdinal_of_follows hfollows)⟩
      · rw [hfresh.activeOrdinals] at hactive
        cases hactive
    · exact hkept other hold

/-!
## One fact of a batch
-/

/-- A state of the batch that still owes the key its outcome, or has settled it. -/
structure Delivers (executable : CompiledWorkflowExecutable) (ledger : Ledger)
    (invocationKey : String) (cancelRequested : Bool) (loops : List LoopState)
    (state : WorkflowTransition) : Prop where
  scheduled : ScheduledState executable ledger state
  cancel : state.cancelRequested = cancelRequested
  awaits : Awaits invocationKey state
  follows : FollowsLoops loops state
  /-- The control of a recorded loop has settled its attempt. -/
  owned : forall loop, loop ∈ state.loops -> loop.controlInvocationKey = invocationKey ->
    Rests invocationKey state

theorem control_of_loopStartFits {state : WorkflowTransition} {fact : LoopStartedObservation}
    (hfits : LoopStartFits executable state.scopes fact) :
    exists control, control ∈ state.invocations ∧
      control.invocationKey = fact.controlInvocationKey := by
  rcases hfits.control with ⟨_, ⟨control, hcontrol, rfl⟩, hkey, _⟩
  exact ⟨control, hcontrol, hkey⟩

theorem Delivers.sameControls {invocationKey : String} {cancelRequested : Bool}
    {loops : List LoopState} {before after : WorkflowTransition}
    (h : Delivers executable ledger invocationKey cancelRequested loops before)
    (hscheduled : ScheduledState executable ledger after) (hextends : Extends before after)
    (hcontrols : SameControls before after) :
    Delivers executable ledger invocationKey cancelRequested loops after where
  scheduled := hscheduled
  cancel := hcontrols.cancelRequested.trans h.cancel
  awaits := h.awaits.progress hextends.progress
  follows := h.follows.of_eq hcontrols.loops
  owned := by
    intro loop hloop hkey
    rw [hcontrols.loops] at hloop
    exact (h.owned loop hloop hkey).progress hextends.progress

def loopsAfter (loops : List LoopState) : WorkflowObservation -> List LoopState
  | .loopIterationCompleted fact => loops.map (finishOrdinal fact)
  | _ => loops

theorem declaresInOpenScopes_cons {isRunning : String -> Bool} {cancelRequested : Bool}
    {loops : List LoopState} {observation : WorkflowObservation}
    {rest : List WorkflowObservation}
    (h : declaresInOpenScopes isRunning cancelRequested loops (observation :: rest) = true) :
    declaresInOpenScopes isRunning cancelRequested (loopsAfter loops observation) rest = true ∧
      forall fact, observation = .loopStarted fact ->
        isRunning fact.controlInvocationKey = true ->
        cancelRequested = false ∧
          isFinishedIterationScope loops (some fact.branchPath) (some fact.iterationPath) =
            false := by
  cases observation with
  | loopStarted started =>
      unfold declaresInOpenScopes at h
      rw [Bool.and_eq_true] at h
      refine ⟨h.right, ?_⟩
      rintro _ ⟨⟩ hrunning
      have hopen := h.left
      rw [hrunning] at hopen
      simpa using hopen
  | loopIterationCompleted fact =>
      refine ⟨h, ?_⟩
      intro started hsame
      cases hsame
  | _ =>
      refine ⟨h, ?_⟩
      intro started hsame
      cases hsame

structure DeliversNext (executable : CompiledWorkflowExecutable) (ledger : Ledger)
    (invocationKey : String) (cancelRequested : Bool) (loops : List LoopState)
    (observation : WorkflowObservation) (after : WorkflowTransition) : Prop where
  delivers : Delivers executable ledger invocationKey cancelRequested
    (loopsAfter loops observation) after
  settles : SettlesAttempt invocationKey observation -> Rests invocationKey after

section

variable {invocationKey : String} {cancelRequested : Bool} {loops : List LoopState}
  {state after : WorkflowTransition} {occurredAt : Timestamp}

theorem delivers_loopStarted {fact : LoopStartedObservation}
    (h : Delivers executable ledger invocationKey cancelRequested loops state)
    (hfits : LoopStartFits executable state.scopes fact)
    (hopen : fact.controlInvocationKey = invocationKey -> cancelRequested = false ∧
      isFinishedIterationScope loops (some fact.branchPath) (some fact.iterationPath) = false)
    (happly : applyLoopStart state fact occurredAt = Except.ok after) :
    DeliversNext executable ledger invocationKey cancelRequested loops (.loopStarted fact)
      after := by
  rcases scheduled_applyLoopStart h.scheduled hfits happly with ⟨hscheduled, hextends⟩
  cases loopStartCase_of_applyLoopStart (control_of_loopStartFits hfits) happly with
  | passed hclosed hafter =>
      rw [hafter]
      refine ⟨h, ?_⟩
      intro hsettles
      rcases hopen hsettles with ⟨hcancel, hscope⟩
      rcases hclosed with hcanceled | hfinished
      · rw [h.cancel, hcancel] at hcanceled
        cases hcanceled
      · rw [isFinishedIterationScope_of_follows h.follows hfinished] at hscope
        cases hscope
  | known loop hloop hkey hafter =>
      rw [hafter]
      refine ⟨h, ?_⟩
      intro hsettles
      exact h.owned loop hloop (hkey.trans hsettles)
  | settled control hcontrol hkey hresting hcancel hloops =>
      have hrests : fact.controlInvocationKey = invocationKey -> Rests invocationKey after :=
        fun hsame => ⟨control, hcontrol, hkey.trans hsame, hresting⟩
      refine ⟨⟨hscheduled, hcancel.trans h.cancel, h.awaits.progress hextends.progress, ?_, ?_⟩,
        hrests⟩
      · rcases hloops with hsame | ⟨declared, _, hfresh, hset⟩
        · exact h.follows.of_eq hsame
        · intro other hother
          rw [hset] at hother
          rcases Keyed.mem_set.mp hother with rfl | ⟨hold, _⟩
          · exact Or.inr hfresh
          · exact h.follows other hold
      · intro other hother hotherKey
        rcases hloops with hsame | ⟨declared, hdeclared, _, hset⟩
        · rw [hsame] at hother
          exact (h.owned other hother hotherKey).progress hextends.progress
        · rw [hset] at hother
          rcases Keyed.mem_set.mp hother with rfl | ⟨hold, _⟩
          · exact hrests (hdeclared.symm.trans hotherKey)
          · exact (h.owned other hold hotherKey).progress hextends.progress

theorem delivers_loopCompleted {fact : LoopIterationCompletedObservation}
    (h : Delivers executable ledger invocationKey cancelRequested loops state)
    (hterminal : isTerminalNodeStatus fact.status = true)
    (happly : applyLoopCompletion state fact occurredAt = Except.ok after) :
    DeliversNext executable ledger invocationKey cancelRequested loops
      (.loopIterationCompleted fact) after := by
  have hquiet := quiet_applyLoopCompletion hterminal happly
  have hcontrols := loops_applyLoopCompletion happly
  refine ⟨⟨h.scheduled.of_sameScopes hquiet.toSameScopes, hcontrols.left.trans h.cancel,
    h.awaits.progress hquiet.progress, followsLoops_completion h.follows happly, ?_⟩,
    fun hsettles => absurd hsettles id⟩
  intro other hother hkey
  rcases hcontrols.right with hloops | ⟨loop, settled, hloop, _, _, hsettled, hloops⟩
  · rw [hloops] at hother
    exact (h.owned other hother hkey).progress hquiet.progress
  · rw [hloops] at hother
    rcases Keyed.mem_set.mp hother with rfl | ⟨hold, _⟩
    · have hsame : loop.controlInvocationKey = invocationKey := by
        rw [← hkey, hsettled.controlInvocationKey]
        exact (follows_finishOrdinal fact loop).controlInvocationKey
      exact (h.owned loop hloop hsame).progress hquiet.progress
    · exact (h.owned other hold hkey).progress hquiet.progress

theorem delivers_applyObservation {observation : WorkflowObservation}
    (h : Delivers executable ledger invocationKey cancelRequested loops state)
    (hfits : ObservationFits executable state.current.workflowVersionId state.scopes observation)
    (hopen : forall fact, observation = .loopStarted fact ->
      fact.controlInvocationKey = invocationKey -> cancelRequested = false ∧
        isFinishedIterationScope loops (some fact.branchPath) (some fact.iterationPath) = false)
    (happly : applyObservation occurredAt state observation = Except.ok after) :
    DeliversNext executable ledger invocationKey cancelRequested loops observation after := by
  rcases scheduled_applyObservation h.scheduled hfits happly with ⟨hscheduled, hextends⟩
  have hordinary : SameControls state after ->
      Delivers executable ledger invocationKey cancelRequested loops after :=
    fun hcontrols => h.sameControls hscheduled hextends hcontrols
  cases observation with
  | cursorOnly =>
      cases happly
      exact ⟨h, fun hsettles => absurd hsettles id⟩
  | cancelRequested =>
      cases happly
      exact ⟨h, fun hsettles => absurd hsettles id⟩
  | outcome fact =>
      rcases exists_of_bind_eq_ok happly with ⟨existing, hexisting, houtcome⟩
      rcases mem_of_requireInvocation hexisting with ⟨hmem, hkey⟩
      refine ⟨hordinary (sameControls_applyTerminalObservation houtcome), ?_⟩
      intro hsettles
      have hrests := rests_applyTerminalObservation hmem hfits houtcome
      rw [hkey] at hrests
      exact hsettles ▸ hrests
  | wait fact =>
      rcases exists_of_bind_eq_ok happly with ⟨existing, _, hwait⟩
      exact ⟨hordinary (sameControls_applyWait hwait), fun hsettles => absurd hsettles id⟩
  | callStarted declared =>
      rcases exists_of_bind_eq_ok happly with ⟨existing, hexisting, hstart⟩
      rcases mem_of_requireInvocation hexisting with ⟨hmem, hkey⟩
      refine ⟨hordinary (sameControls_applyDeclarationStart hstart), ?_⟩
      intro hsettles
      have hsame : existing.invocationKey = invocationKey := hkey.trans hsettles
      rw [← hsame]
      exact rests_applyDeclarationStart hmem (hsame ▸ h.awaits) hstart
  | taskStarted declared =>
      rcases exists_of_bind_eq_ok happly with ⟨existing, hexisting, hstart⟩
      rcases mem_of_requireInvocation hexisting with ⟨hmem, hkey⟩
      refine ⟨hordinary (sameControls_applyDeclarationStart hstart), ?_⟩
      intro hsettles
      have hsame : existing.invocationKey = invocationKey := hkey.trans hsettles
      rw [← hsame]
      exact rests_applyDeclarationStart hmem (hsame ▸ h.awaits) hstart
  | branchSelected fact =>
      exact ⟨hordinary (sameControls_applyBranchSelection happly),
        fun hsettles => absurd hsettles id⟩
  | joinDeclared fact =>
      exact ⟨hordinary (sameControls_applyJoinDeclaration happly),
        fun hsettles => absurd hsettles id⟩
  | branchDisposition fact =>
      exact ⟨hordinary (sameControls_applyBranchDisposition happly),
        fun hsettles => absurd hsettles id⟩
  | loopStarted fact => exact delivers_loopStarted h hfits (hopen fact rfl) happly
  | loopIterationCompleted fact => exact delivers_loopCompleted h hfits happly

end

/-!
## A whole batch
-/

/-- A batch that settles the attempt of a running invocation delivers its outcome. -/
theorem rests_of_batch {isRunning : String -> Bool} {invocationKey : String}
    {cancelRequested : Bool} {workflowVersionId : String} {scopes : Set InvocationScope}
    {occurredAt : Timestamp} (hrunning : isRunning invocationKey = true) :
    forall {observations : List WorkflowObservation} {loops : List LoopState}
      {state after : WorkflowTransition},
      Delivers executable ledger invocationKey cancelRequested loops state ->
      state.current.workflowVersionId = workflowVersionId -> scopes ⊆ state.scopes ->
      (forall observation, observation ∈ observations ->
        ObservationFits executable workflowVersionId scopes observation) ->
      declaresInOpenScopes isRunning cancelRequested loops observations = true ->
      observations.foldlM (applyObservation occurredAt) state = Except.ok after ->
      (Rests invocationKey state ∨ exists observation, observation ∈ observations ∧
        SettlesAttempt invocationKey observation) ->
      Rests invocationKey after := by
  intro observations
  induction observations with
  | nil =>
      intro loops state after _ _ _ _ _ happly hsettles
      rw [List.foldlM_nil, pure_eq_ok_iff] at happly
      rw [← happly]
      rcases hsettles with hrests | ⟨_, hmem, _⟩
      · exact hrests
      · cases hmem
  | cons observation rest ih =>
      intro loops state after hdelivers hversion hscopes hfits hdeclares happly hsettles
      rw [List.foldlM_cons] at happly
      rcases exists_of_bind_eq_ok happly with ⟨next, hnext, hrest⟩
      rcases declaresInOpenScopes_cons hdeclares with ⟨hdeclaresRest, hopen⟩
      have hobservation : ObservationFits executable state.current.workflowVersionId state.scopes
          observation := by
        rw [hversion]
        exact (hfits observation (List.mem_cons_self ..)).mono hscopes
      have hstep := delivers_applyObservation hdelivers hobservation
        (fun fact hsame hkey => hopen fact hsame (hkey ▸ hrunning)) hnext
      rcases scheduled_applyObservation hdelivers.scheduled hobservation hnext with ⟨_, hextends⟩
      apply ih hstep.delivers
      · rw [hextends.current]
        exact hversion
      · exact hscopes.trans hextends.scopes
      · intro other hother
        exact hfits other (List.mem_cons_of_mem _ hother)
      · exact hdeclaresRest
      · exact hrest
      · rcases hsettles with hrests | ⟨settling, hmem, hsettles⟩
        · exact Or.inl (hrests.progress hextends.progress)
        · rcases List.mem_cons.mp hmem with rfl | hlater
          · exact Or.inl (hstep.settles hsettles)
          · exact Or.inr ⟨settling, hlater, hsettles⟩

/-!
## Consumed outcomes
-/

/-- The facts that an advance consumes: those its checkpoint has not passed yet. -/
def consumedFacts (input : AdvanceWorkflowInput) : List SequencedFact :=
  match parseCheckpoint input.checkpoint with
  | Except.error _ => []
  | Except.ok checkpoint =>
      match parsePersistedObservations input.observations checkpoint with
      | Except.error _ => []
      | Except.ok persisted => persisted.fresh

def ConsumesOutcome (input : AdvanceWorkflowInput) (attempt : AttemptReference) : Prop :=
  exists fact status output reasonCode, fact ∈ consumedFacts input ∧
    fact.detail = .outcome attempt status output reasonCode

def IsOutstanding (checkpoint : WorkflowCheckpoint) (attempt : AttemptReference) : Prop :=
  exists invocation, invocation ∈ checkpoint.invocations ∧
    invocation.invocationKey = attempt.invocationKey ∧
    invocation.attemptNumber = attempt.attemptNumber ∧ invocation.status = .running

def isRunningIn (checkpoint : WorkflowCheckpoint) (invocationKey : String) : Bool :=
  checkpoint.invocations.any fun invocation =>
    invocation.invocationKey == invocationKey && invocation.status == .running

/--
The batch declares no For Each whose control is running where the run is canceled,
or where the iteration of the control has finished.
-/
def declaresOpenLoops (host : EngineHost) (input : AdvanceWorkflowInput) : Bool :=
  match prepareAdvance host input with
  | Except.error _ => true
  | Except.ok prepared =>
      declaresInOpenScopes (isRunningIn prepared.checkpoint)
        (prepared.checkpoint.cancelRequested || prepared.observations.contains .cancelRequested)
        prepared.checkpoint.loops prepared.observations

theorem loopStarted_of_declared {host : EngineHost} {completed : List CompletedOutput}
    {facts : List PersistedFact} {declaredElsewhere : List String}
    {outcomes : SuccessfulOutcomes} {checkpoint : WorkflowCheckpoint} {nodes : NodeIndex}
    {derivedObservations : List WorkflowObservation} {forEach : ForEachObservations}
    (h : forEachCoordinatorObservations host completed facts declaredElsewhere outcomes checkpoint
      nodes derivedObservations = Except.ok forEach) {invocationKey : String}
    (hdeclared : invocationKey ∈ forEach.declarationInvocationKeys) :
    exists observation, observation ∈ forEach.observations ∧
      SettlesAttempt invocationKey observation := by
  unfold forEachCoordinatorObservations at h
  rcases exists_of_bind_eq_ok h with ⟨progress, _, hrest⟩
  rcases exists_of_bind_eq_ok hrest with ⟨completions, _, hdone⟩
  cases hdone
  rcases List.mem_map.mp hdeclared with ⟨fact, hfact, hkey⟩
  refine ⟨.loopStarted fact, ?_, hkey⟩
  rw [mem_sortWith]
  exact List.mem_append_left _ (List.mem_map_of_mem hfact)

theorem callStarted_of_declared {outcomes : SuccessfulOutcomes} {checkpoint : WorkflowCheckpoint}
    {nodes : NodeIndex} {calls : DeclaredWork WorkflowCallIntent}
    (h : callDeclarationObservations outcomes checkpoint nodes = Except.ok calls)
    {invocationKey : String} (hdeclared : invocationKey ∈ calls.declarationInvocationKeys) :
    exists observation, observation ∈ calls.observations ∧
      SettlesAttempt invocationKey observation := by
  unfold callDeclarationObservations at h
  rcases exists_of_bind_eq_ok h with ⟨intents, _, hdone⟩
  cases hdone
  exact ⟨.callStarted invocationKey, List.mem_map_of_mem hdeclared, rfl⟩

theorem taskStarted_of_declared {completed : List CompletedOutput}
    {outcomes : SuccessfulOutcomes} {checkpoint : WorkflowCheckpoint} {nodes : NodeIndex}
    {tasks : DeclaredWork PendingTaskIntent}
    (h : taskDeclarationObservations completed outcomes checkpoint nodes = Except.ok tasks)
    {invocationKey : String} (hdeclared : invocationKey ∈ tasks.declarationInvocationKeys) :
    exists observation, observation ∈ tasks.observations ∧
      SettlesAttempt invocationKey observation := by
  unfold taskDeclarationObservations at h
  rcases exists_of_bind_eq_ok h with ⟨pending, _, hrest⟩
  rcases exists_of_bind_eq_ok hrest with ⟨intents, _, hdone⟩
  cases hdone
  exact ⟨.taskStarted invocationKey, List.mem_map_of_mem hdeclared, rfl⟩

theorem toObservation_outcome {fact : SequencedFact} {attempt : AttemptReference}
    {status : NodeStatus} {output : Option OutputReference} {reasonCode : Option String}
    (h : fact.detail = .outcome attempt status output reasonCode) :
    fact.toObservation =
      .outcome
        { invocationKey := attempt.invocationKey
          status := status
          output := output
          reasonCode := reasonCode } := by
  rw [SequencedFact.toObservation, h]

theorem rewriteDeclaredOutcome_of_not_mem {declared : List String} {fact : OutcomeObservation}
    (h : fact.invocationKey ∉ declared) :
    rewriteDeclaredOutcome declared (.outcome fact) = .outcome fact := by
  show (if declared.contains fact.invocationKey then _ else _) = _
  rw [if_neg (by simpa using h)]

theorem exists_settles_of_consumed {host : EngineHost} {input : AdvanceWorkflowInput}
    {checkpoint : WorkflowCheckpoint} {coordinated : CoordinatedObservations}
    (h : coordinateObservations host input checkpoint = Except.ok coordinated)
    {persisted : ParsedPersistedObservations}
    (hpersisted : parsePersistedObservations input.observations checkpoint = Except.ok persisted)
    {fact : SequencedFact} (hfact : fact ∈ persisted.fresh) {attempt : AttemptReference}
    {status : NodeStatus} {output : Option OutputReference} {reasonCode : Option String}
    (hdetail : fact.detail = .outcome attempt status output reasonCode) :
    exists observation, observation ∈ allObservations coordinated ∧
      SettlesAttempt attempt.invocationKey observation := by
  unfold coordinateObservations at h
  rw [hpersisted] at h
  dsimp only at h
  rcases exists_of_bind_eq_ok h with ⟨_, hsame, hrest⟩
  cases hsame
  rcases exists_of_bind_eq_ok hrest with ⟨branchSelections, _, hrest⟩
  rcases exists_of_bind_eq_ok hrest with ⟨resolvedFailures, _, hrest⟩
  rcases exists_of_bind_eq_ok hrest with ⟨calls, hcalls, hrest⟩
  rcases exists_of_bind_eq_ok hrest with ⟨callOutcomes, _, hrest⟩
  rcases exists_of_bind_eq_ok hrest with ⟨tasks, htasks, hrest⟩
  rcases exists_of_bind_eq_ok hrest with ⟨taskOutcomes, _, hrest⟩
  rcases exists_of_bind_eq_ok hrest with ⟨forEach, hforEach, hrest⟩
  rcases exists_of_bind_eq_ok hrest with ⟨joins, _, hdone⟩
  cases hdone
  simp only [allObservations, List.mem_append]
  by_cases hdeclared : attempt.invocationKey ∈ forEach.declarationInvocationKeys ++
      (calls.declarationInvocationKeys ++ tasks.declarationInvocationKeys)
  · rcases List.mem_append.mp hdeclared with hloop | hother
    · rcases loopStarted_of_declared hforEach hloop with ⟨observation, hmem, hsettles⟩
      exact ⟨observation, by tauto, hsettles⟩
    · rcases List.mem_append.mp hother with hcall | htask
      · rcases callStarted_of_declared hcalls hcall with ⟨observation, hmem, hsettles⟩
        exact ⟨observation, by tauto, hsettles⟩
      · rcases taskStarted_of_declared htasks htask with ⟨observation, hmem, hsettles⟩
        exact ⟨observation, by tauto, hsettles⟩
  · have hkept : rewriteDeclaredOutcome (forEach.declarationInvocationKeys ++
          (calls.declarationInvocationKeys ++ tasks.declarationInvocationKeys))
        fact.toObservation = fact.toObservation := by
      rw [toObservation_outcome hdetail]
      exact rewriteDeclaredOutcome_of_not_mem hdeclared
    refine ⟨fact.toObservation, ?_, ?_⟩
    · have hmem := List.mem_map_of_mem (f := rewriteDeclaredOutcome
          (forEach.declarationInvocationKeys ++
            (calls.declarationInvocationKeys ++ tasks.declarationInvocationKeys)))
        (List.mem_map_of_mem (f := SequencedFact.toObservation) hfact)
      rw [hkept] at hmem
      tauto
    · rw [toObservation_outcome hdetail]
      rfl

/-!
## Advances
-/

theorem not_running_of_consistent {loop : LoopState} {parent : InvocationState}
    {cancelRequested deadlineExpired : Bool}
    (hterminal : forall status, loop.terminalStatus = some status ->
      isLoopTerminalStatus status = true)
    (h : loopParentStatusIsConsistent loop parent cancelRequested deadlineExpired = true) :
    parent.status ≠ .running := by
  intro hrunning
  unfold loopParentStatusIsConsistent at h
  rw [hrunning] at h
  cases hstatus : loop.terminalStatus with
  | none =>
      rw [hstatus] at h
      simp at h
  | some status =>
      rw [hstatus] at h
      have hsame : status = .running := (beq_iff_eq.mp h).symm
      have hloop := hterminal status hstatus
      rw [hsame] at hloop
      cases hloop

section

variable {host : EngineHost} {input : AdvanceWorkflowInput} {plan : WorkflowTransitionPlan}

/-- The state the facts are applied to still owes an outstanding attempt its outcome. -/
theorem AdvancePasses.delivers (passes : AdvancePasses host input plan)
    (hcheckpoint : ScheduledCheckpoint input.executable ledger input.checkpoint)
    {resumed : WorkflowTransition}
    (hresumed : passes.coordinated.persisted.dueResumptions.foldlM applyDueResumption
      (applyControlFacts passes.initial (allObservations passes.coordinated)) =
        Except.ok resumed)
    {invocation : InvocationState} (hmem : invocation ∈ passes.checkpoint.invocations)
    (hrunning : invocation.status = .running) :
    Delivers input.executable ledger invocation.invocationKey
      (passes.checkpoint.cancelRequested ||
        (allObservations passes.coordinated).contains .cancelRequested)
      passes.checkpoint.loops (startRun resumed input.occurredAt) := by
  have hparsed := parsedFrom_of_parseCheckpoint passes.parsed
  have hscheduled := hcheckpoint.parse passes.parsed
  rcases resumptions_spec hresumed with ⟨hsame, hresumes⟩
  rcases controls_started hresumed with ⟨hloops, hcancel⟩
  have hmemLoops : forall loop, loop ∈ (startRun resumed input.occurredAt).loops ->
      loop ∈ passes.checkpoint.loops := by
    intro loop hloop
    rw [hloops] at hloop
    exact Keyed.mem_of_mem_ofList hloop
  constructor
  · exact (scheduled_initialTransition hparsed hscheduled).of_sameScopes hsame
  · exact hcancel
  · rcases hresumes invocation (passes.mem_initial.mpr hmem) with ⟨kept, hkept, hrelated⟩
    rw [hrelated.running hrunning] at hkept
    exact ⟨invocation, hkept, rfl, Or.inr ⟨hrunning, hparsed.waits invocation hmem hrunning⟩⟩
  · intro loop hloop
    exact Or.inl ⟨loop, hmemLoops loop hloop, Follows.refl loop⟩
  · intro loop hloop hkey
    -- a recorded loop has a control that does not run
    rcases hparsed.controls loop (hmemLoops loop hloop) with
        ⟨parent, hparent, hsameKey, hconsistent⟩
    have heq : parent = invocation :=
      List.inj_on_of_nodup_map hparsed.invocations_nodup hparent hmem (hsameKey.trans hkey)
    have hidle := not_running_of_consistent
      (hscheduled.fits loop (hmemLoops loop hloop)).terminalStatus hconsistent
    exact absurd (heq ▸ hrunning) hidle

theorem AdvancePasses.rests_of_consumed (passes : AdvancePasses host input plan)
    (planned : passes.Planned)
    (hcheckpoint : ScheduledCheckpoint input.executable ledger input.checkpoint)
    (hopen : declaresOpenLoops host input = true) {attempt : AttemptReference}
    (hconsumed : ConsumesOutcome input attempt) {invocation : InvocationState}
    (hmem : invocation ∈ passes.checkpoint.invocations)
    (hkey : invocation.invocationKey = attempt.invocationKey)
    (hrunning : invocation.status = .running) :
    Rests attempt.invocationKey planned.settled := by
  rw [← hkey]
  rcases hconsumed with ⟨fact, status, output, reasonCode, hfact, hdetail⟩
  have hsettles : exists observation, observation ∈ allObservations passes.coordinated ∧
      SettlesAttempt invocation.invocationKey observation := by
    unfold consumedFacts at hfact
    rw [passes.parsed] at hfact
    dsimp only at hfact
    split at hfact
    · cases hfact
    · rename_i persisted hpersisted
      rw [hkey]
      exact exists_settles_of_consumed passes.coordinates hpersisted hfact hdetail
  have hdeclares : declaresInOpenScopes (isRunningIn passes.checkpoint)
      (passes.checkpoint.cancelRequested ||
        (allObservations passes.coordinated).contains .cancelRequested)
      passes.checkpoint.loops (allObservations passes.coordinated) = true := by
    unfold declaresOpenLoops at hopen
    rw [passes.prepares] at hopen
    exact hopen
  have hisRunning : isRunningIn passes.checkpoint invocation.invocationKey = true := by
    unfold isRunningIn
    rw [List.any_eq_true]
    exact ⟨invocation, hmem, by simp [hrunning]⟩
  rcases exists_of_bind_eq_ok passes.observes with ⟨resumed, hresumed, hobserved⟩
  have hdelivers := passes.delivers hcheckpoint hresumed hmem hrunning
  have hfits := observations_fit (hcheckpoint.parse passes.parsed) passes.coordinates
  rcases resumptions_spec hresumed with ⟨hsame, _⟩
  have hscopes : (startRun resumed input.occurredAt).scopes =
      scopesOf passes.checkpoint.invocations := by
    rw [hsame.scopes]
    exact scopes_initialTransition
      (parsedFrom_of_parseCheckpoint passes.parsed).invocations_nodup
  have hrests : Rests invocation.invocationKey passes.observed := by
    apply rests_of_batch hisRunning hdelivers _ _ hfits hdeclares hobserved (Or.inr hsettles)
    · rw [hsame.current]
      rfl
    · rw [hscopes]
  have hobservedState := (passes.observed_spec hcheckpoint).left
  rcases hrests.progress (passes.stopped_spec hobservedState).right.progress with
    ⟨stopped, hstopped, hstoppedKey, hresting⟩
  rcases planned.keeps stopped hstopped with ⟨kept, hkept, hadmits⟩
  rw [hadmits.resting hresting] at hkept
  exact ⟨stopped, hkept, hstoppedKey, hresting⟩

end

/-!
## Runs

An invocation runs after its outcome was consumed only as a later attempt.
-/

def RunsLater (attemptNumber : Nat) (invocation : InvocationState) : Prop :=
  attemptNumber ≤ invocation.attemptNumber ∧
    (invocation.status = .running -> attemptNumber < invocation.attemptNumber)

theorem runsLater_stable {attemptNumber : Nat} (before after : InvocationState)
    (hcontinues : Continues before after) (h : RunsLater attemptNumber before) :
    RunsLater attemptNumber after := by
  refine ⟨h.left.trans hcontinues.attempts, ?_⟩
  intro hrunning
  rcases hcontinues.runs hrunning with hlater | hbefore
  · exact Nat.lt_of_le_of_lt h.left hlater
  · exact Nat.lt_of_lt_of_le (h.right hbefore) hcontinues.attempts

theorem advance_delivers {host : EngineHost} {input : AdvanceWorkflowInput}
    {plan : WorkflowTransitionPlan}
    (hcheckpoint : ScheduledCheckpoint input.executable ledger input.checkpoint)
    (hadvance : advanceWorkflow host input = Except.ok plan)
    (hopen : declaresOpenLoops host input = true) :
    exists paths,
      RunRecords input.executable input.workflowVersionId
        ((ledger.record (admissionsOfAdvance host input)).leave paths) plan.checkpoint ∧
      (forall invocationKey attemptNumber,
        Tracked input.executable input.workflowVersionId ledger.left input.checkpoint.invocations
          invocationKey (RunsLater attemptNumber) ->
        Tracked input.executable input.workflowVersionId (ledger.left ∪ paths)
          plan.checkpoint.invocations invocationKey (RunsLater attemptNumber)) ∧
      forall attempt, ConsumesOutcome input attempt -> IsOutstanding input.checkpoint attempt ->
        Tracked input.executable input.workflowVersionId (ledger.left ∪ paths)
            plan.checkpoint.invocations attempt.invocationKey (RunsLater attempt.attemptNumber) ∧
          forall invocation, invocation ∈ plan.checkpoint.invocations ->
            invocation.invocationKey = attempt.invocationKey -> invocation.status ≠ .running := by
  rcases exists_advancePasses hadvance with ⟨passes⟩
  rcases exists_planPasses passes.plans with ⟨planned⟩
  have hrecords := passes.records planned hcheckpoint
  have hparsed := parsedFrom_of_parseCheckpoint passes.parsed
  refine ⟨_, hrecords.planned, ?_, ?_⟩
  · intro invocationKey attemptNumber htracked
    exact hrecords.tracks runsLater_stable htracked
  · rintro attempt hconsumed ⟨source, hsource, hkey, hnumber, hrunning⟩
    rcases normalizeScope_eq source with ⟨hnormalKey, _, hnormalStatus, _⟩
    rcases passes.rests_of_consumed planned hcheckpoint hopen hconsumed
        (hparsed.mem_iff.mpr ⟨source, hsource, rfl⟩) (hnormalKey.trans hkey)
        (hnormalStatus.trans hrunning) with
      ⟨settled, hsettled, hsettledKey, hresting⟩
    have hidle : settled.status ≠ .running := by
      intro hstill
      rw [hstill] at hresting
      cases hresting
    constructor
    · rcases hrecords.records.kept source hsource with ⟨kept, hkept, hcontinues, _⟩
      have heq : kept = settled := by
        apply Keyed.eq_of_mem_of_key_eq hkept hsettled
        exact hcontinues.key.trans (hkey.trans hsettledKey.symm)
      have hlater : RunsLater attempt.attemptNumber settled := by
        refine ⟨?_, fun hstill => absurd hstill hidle⟩
        rw [← hnumber, ← heq]
        exact hcontinues.attempts
      rw [← hsettledKey]
      exact hrecords.tracked _ runsLater_stable settled hsettled hlater
    · intro invocation hmem hsame
      rcases hrecords.origin invocation hmem with ⟨origin, horigin, rfl⟩
      rcases normalizeScope_eq origin with ⟨horiginKey, _, horiginStatus, _⟩
      have heq : origin = settled := by
        apply Keyed.eq_of_mem_of_key_eq horigin hsettled
        exact (horiginKey.symm.trans hsame).trans hsettledKey.symm
      rw [horiginStatus, heq]
      exact hidle

structure DeliversOutcomes (executable : CompiledWorkflowExecutable) (workflowVersionId : String)
    (inputs : List AdvanceWorkflowInput) (ledger : Ledger) (checkpoint : WorkflowCheckpoint) :
    Prop where
  records : RunRecords executable workflowVersionId ledger checkpoint
  tracked : forall input, input ∈ inputs -> forall attempt, ConsumesOutcome input attempt ->
    IsOutstanding input.checkpoint attempt ->
    Tracked executable workflowVersionId ledger.left checkpoint.invocations attempt.invocationKey
      (RunsLater attempt.attemptNumber)
  last : forall input, inputs.getLast? = some input -> forall attempt,
    ConsumesOutcome input attempt -> IsOutstanding input.checkpoint attempt ->
    forall invocation, invocation ∈ checkpoint.invocations ->
      invocation.invocationKey = attempt.invocationKey -> invocation.status ≠ .running

theorem deliversOutcomes_of_run {host : EngineHost} {workflowVersionId : String} {budget : Nat}
    {inputs : List AdvanceWorkflowInput} {checkpoint : WorkflowCheckpoint}
    (h : WorkflowRun host executable workflowVersionId budget inputs checkpoint)
    (hopen : forall input, input ∈ inputs -> declaresOpenLoops host input = true) :
    exists ledger, DeliversOutcomes executable workflowVersionId inputs ledger checkpoint := by
  apply h.invariant (fun inputs checkpoint =>
    (forall input, input ∈ inputs -> declaresOpenLoops host input = true) ->
      exists ledger, DeliversOutcomes executable workflowVersionId inputs ledger checkpoint)
    _ _ hopen
  · intro start hstart _
    refine ⟨_, runRecords_created hstart, ?_, ?_⟩
    · intro input hinput
      cases hinput
    · intro input hlast
      cases hlast
  · rintro inputs _ input _ _ ih ⟨rfl, rfl, rfl, plan, hadvance, rfl⟩ hall
    rcases ih fun other hother => hall other (List.mem_append_left _ hother) with
      ⟨ledger, hdelivers⟩
    have hinput : input ∈ inputs ++ [input] :=
      List.mem_append_right _ (List.mem_singleton_self input)
    rcases advance_delivers hdelivers.records.scheduled hadvance (hall input hinput) with
      ⟨paths, hrecords, htracks, hconsumes⟩
    refine ⟨_, hrecords, ?_, ?_⟩
    · intro other hother attempt hconsumed houtstanding
      rcases List.mem_append.mp hother with hold | hnew
      · exact htracks _ _ (hdelivers.tracked other hold attempt hconsumed houtstanding)
      · rw [List.mem_singleton.mp hnew] at hconsumed houtstanding
        exact (hconsumes attempt hconsumed houtstanding).left
    · intro other hlast attempt hconsumed houtstanding
      rw [List.getLast?_concat, Option.some.injEq] at hlast
      rw [← hlast] at hconsumed houtstanding
      exact (hconsumes attempt hconsumed houtstanding).right

/--
No outcome of an outstanding attempt is lost in a run whose batches declare no For
Each in a canceled run or a finished iteration.
-/
theorem outcomes_delivered {host : EngineHost} {workflowVersionId : String} {budget : Nat}
    {inputs : List AdvanceWorkflowInput} {checkpoint : WorkflowCheckpoint}
    (h : WorkflowRun host executable workflowVersionId budget inputs checkpoint)
    (hopen : forall input, input ∈ inputs -> declaresOpenLoops host input = true) :
    (forall input, inputs.getLast? = some input -> forall attempt,
      ConsumesOutcome input attempt -> IsOutstanding input.checkpoint attempt ->
      forall invocation, invocation ∈ checkpoint.invocations ->
        invocation.invocationKey = attempt.invocationKey -> invocation.status ≠ .running) ∧
      forall input, input ∈ inputs -> forall attempt,
        ConsumesOutcome input attempt -> IsOutstanding input.checkpoint attempt ->
        forall invocation, invocation ∈ checkpoint.invocations ->
          invocation.invocationKey = attempt.invocationKey -> invocation.status = .running ->
          attempt.attemptNumber < invocation.attemptNumber := by
  rcases deliversOutcomes_of_run h hopen with ⟨ledger, hdelivers⟩
  refine ⟨hdelivers.last, ?_⟩
  intro input hinput attempt hconsumed houtstanding invocation hmem hkey
  have htracked := hdelivers.tracked input hinput attempt hconsumed houtstanding
  exact (hdelivers.records.eq_of_tracked htracked hmem hkey).right

def cancelFact (sequence : Nat) : PersistedFact :=
  .sequenced { sequence := sequence, occurredAt := 1767225600000, detail := .cancelRequested }

def canceledControlInput : AdvanceWorkflowInput :=
  loopInput loopStarted [cancelFact 4, loopSuccess 5] [loopOutput 5]

def loopOutcome (sequence : Nat) : SequencedFact :=
  { sequence := sequence
    occurredAt := 1767225600000
    detail := .outcome loopAttempt .succeeded (some (.inline loopAttempt.attemptId)) none }

theorem loopStarted_outstanding : IsOutstanding loopStarted loopAttempt :=
  ⟨{ invocationKey := loopAttempt.invocationKey
     nodeId := "loop"
     status := .running
     attemptNumber := 1 }, List.mem_singleton_self _, rfl, rfl, rfl⟩

/-- The outcome of the control is consumed, and its invocation keeps running. -/
theorem outcome_lost_of_canceled :
    ¬ forall inputs checkpoint,
      WorkflowRun plainHost loopExecutable loopVersion 100 inputs checkpoint ->
      forall input, inputs.getLast? = some input -> forall attempt,
        ConsumesOutcome input attempt -> IsOutstanding input.checkpoint attempt ->
        forall invocation, invocation ∈ checkpoint.invocations ->
          invocation.invocationKey = attempt.invocationKey -> invocation.status ≠ .running := by
  intro hclaim
  have hadvanced : (advanceWorkflow plainHost canceledControlInput).map
      (fun plan => plan.checkpoint.invocations.map fun invocation =>
        (invocation.invocationKey, invocation.status)) =
      Except.ok [(loopAttempt.invocationKey, NodeStatus.running)] := by
    decide +kernel
  rcases exists_of_map_eq_ok hadvanced with ⟨plan, hplan, hinvocations⟩
  have hrun : WorkflowRun plainHost loopExecutable loopVersion 100
      [startInput, canceledControlInput] plan.checkpoint :=
    Run.step run_startInput ⟨rfl, rfl, rfl, plan, hplan, rfl⟩
  have hconsumed : ConsumesOutcome canceledControlInput loopAttempt := by
    have hmem : loopOutcome 5 ∈ consumedFacts canceledControlInput := by decide +kernel
    exact ⟨loopOutcome 5, _, _, _, hmem, rfl⟩
  have hpair : (loopAttempt.invocationKey, NodeStatus.running) ∈
      plan.checkpoint.invocations.map fun invocation =>
        (invocation.invocationKey, invocation.status) := by
    rw [hinvocations]
    exact List.mem_singleton_self _
  rcases List.mem_map.mp hpair with ⟨invocation, hmem, hsame⟩
  injection hsame with hkey hstatus
  exact hclaim _ _ hrun _ rfl loopAttempt hconsumed loopStarted_outstanding invocation hmem hkey
    hstatus

/-- Without the cancellation the control waits for its iterations. -/
theorem outcomes_delivered_sample :
    exists plan, advanceWorkflow plainHost controlInput = Except.ok plan ∧
      ConsumesOutcome controlInput loopAttempt ∧
      forall invocation, invocation ∈ plan.checkpoint.invocations ->
        invocation.invocationKey = loopAttempt.invocationKey -> invocation.status ≠ .running := by
  rcases exists_of_map_eq_ok planned_controlInput with ⟨plan, hplan, hcheckpoint⟩
  have hrun := run_controlInput
  rw [← hcheckpoint] at hrun
  have hconsumed : ConsumesOutcome controlInput loopAttempt := by
    have hmem : loopOutcome 4 ∈ consumedFacts controlInput := by decide +kernel
    exact ⟨loopOutcome 4, _, _, _, hmem, rfl⟩
  have hopen : forall input, input ∈ [startInput, controlInput] ->
      declaresOpenLoops plainHost input = true := by
    have hall : [startInput, controlInput].all (declaresOpenLoops plainHost) = true := by
      decide +kernel
    exact fun input hinput => List.all_eq_true.mp hall input hinput
  exact ⟨plan, hplan, hconsumed,
    (outcomes_delivered hrun hopen).left controlInput rfl loopAttempt hconsumed
      loopStarted_outstanding⟩

end Engine
end Pertexo
