import Pertexo.Engine.CoordinatedDeclarations

/-!
# Declarations of loops in a batch

## Open scopes

A declaration in a canceled run, or in an iteration that has finished, is
passed over. The completions before it in the batch finish their iterations.
-/

namespace Pertexo
namespace Engine

open Library
open Values

variable {executable : CompiledWorkflowExecutable} {ledger : Ledger}

def finishOrdinal (fact : LoopIterationCompletedObservation) (loop : LoopState) : LoopState :=
  if loop.controlInvocationKey == fact.controlInvocationKey then
    { loop with terminalOrdinals := loop.terminalOrdinals ++ [fact.ordinal] }
  else loop

/-- The batch declares no loop of a running control where it would be passed over. -/
def declaresInOpenScopes (isRunning : String -> Bool) (cancelRequested : Bool) :
    List LoopState -> List WorkflowObservation -> Bool
  | _, [] => true
  | loops, .loopStarted fact :: rest =>
      (!isRunning fact.controlInvocationKey ||
        (!cancelRequested &&
          !isFinishedIterationScope loops (some fact.branchPath) (some fact.iterationPath))) &&
        declaresInOpenScopes isRunning cancelRequested loops rest
  | loops, .loopIterationCompleted fact :: rest =>
      declaresInOpenScopes isRunning cancelRequested (loops.map (finishOrdinal fact)) rest
  | loops, _ :: rest => declaresInOpenScopes isRunning cancelRequested loops rest

/-!
## Loops and the stop flag

Only declarations and completions change the loops of a state, and no fact of
the batch changes its stop flag.
-/

structure SameControls (before after : WorkflowTransition) : Prop where
  loops : after.loops = before.loops
  cancelRequested : after.cancelRequested = before.cancelRequested

theorem SameControls.refl (state : WorkflowTransition) : SameControls state state :=
  ⟨rfl, rfl⟩

theorem SameControls.trans {first second third : WorkflowTransition}
    (h : SameControls first second) (h' : SameControls second third) :
    SameControls first third :=
  ⟨h'.loops.trans h.loops, h'.cancelRequested.trans h.cancelRequested⟩

theorem sameControls_selectFailureHandler {state after : WorkflowTransition}
    {source : InvocationState} {failure : WorkflowNodeFailureValue} {occurredAt : Timestamp}
    (h : selectFailureHandler state source failure occurredAt = Except.ok after) :
    SameControls state after := by
  unfold selectFailureHandler at h
  split at h
  · cases h
    exact SameControls.refl state
  · split at h
    · cases h
      exact SameControls.refl state
    · rcases exists_of_bind_eq_ok h with ⟨_, _, hrest⟩
      rcases exists_of_bind_eq_ok hrest with ⟨_, _, hrest⟩
      rcases exists_of_bind_eq_ok hrest with ⟨_, _, hrest⟩
      rcases exists_of_bind_eq_ok hrest with ⟨_, _, hrest⟩
      rcases exists_of_bind_eq_ok hrest with ⟨_, _, hdone⟩
      cases hdone
      exact ⟨rfl, rfl⟩

theorem sameControls_applyTerminalObservation {state after : WorkflowTransition}
    {existing : InvocationState} {observation : OutcomeObservation} {occurredAt : Timestamp}
    (h : applyTerminalObservation state existing observation occurredAt = Except.ok after) :
    SameControls state after := by
  rcases applyTerminalObservation_cases h with ⟨rfl, _⟩ | ⟨_, drafted, hdrafted, hafter⟩
  · exact SameControls.refl _
  · have hstored : SameControls state drafted := by
      rcases hdrafted with rfl | ⟨draft, rfl⟩
      · exact ⟨rfl, rfl⟩
      · exact ⟨rfl, rfl⟩
    rcases hafter with rfl | ⟨failure, hselected⟩
    · exact hstored
    · exact hstored.trans (sameControls_selectFailureHandler hselected)

theorem sameControls_applyWait {state after : WorkflowTransition} {existing : InvocationState}
    {observation : WaitObservation} {occurredAt : Timestamp}
    (h : applyWait state existing observation occurredAt = Except.ok after) :
    SameControls state after := by
  unfold applyWait at h
  rcases exists_of_bind_eq_ok h with ⟨_, _, hwaited⟩
  dsimp only at hwaited
  split at hwaited
  · cases hwaited
    exact ⟨rfl, rfl⟩
  · cases hwaited
    exact ⟨rfl, rfl⟩

theorem sameControls_applyDeclarationStart {state after : WorkflowTransition}
    {existing : InvocationState} {waitKind : WaitKind} {occurredAt : Timestamp}
    (h : applyDeclarationStart state existing waitKind occurredAt = Except.ok after) :
    SameControls state after := by
  unfold applyDeclarationStart at h
  split at h
  · cases h
    exact SameControls.refl state
  · split at h
    · cases h
      exact SameControls.refl state
    · rcases exists_of_bind_eq_ok h with ⟨_, _, hafter⟩
      cases hafter
      exact ⟨rfl, rfl⟩

theorem sameControls_applyBranchSelection {state after : WorkflowTransition}
    {observation : BranchSelectedObservation}
    (h : applyBranchSelection state observation = Except.ok after) :
    SameControls state after := by
  unfold applyBranchSelection at h
  split at h
  · cases h
    exact SameControls.refl state
  · rcases exists_of_bind_eq_ok h with ⟨_, _, hselected⟩
    dsimp only at hselected
    split at hselected
    · rcases exists_of_bind_eq_ok hselected with ⟨_, _, hafter⟩
      cases hafter
      exact SameControls.refl state
    · cases hselected
      exact ⟨rfl, rfl⟩

theorem sameControls_applyJoinDeclaration {state after : WorkflowTransition}
    {observation : JoinDeclaredObservation}
    (h : applyJoinDeclaration state observation = Except.ok after) :
    SameControls state after := by
  unfold applyJoinDeclaration at h
  split at h
  · cases h
    exact SameControls.refl state
  · rcases exists_of_bind_eq_ok h with ⟨_, _, hdeclared⟩
    dsimp only at hdeclared
    split at hdeclared
    · rcases exists_of_bind_eq_ok hdeclared with ⟨_, _, hafter⟩
      cases hafter
      exact SameControls.refl state
    · split at hdeclared
      · cases hdeclared
        exact ⟨rfl, rfl⟩
      · cases hdeclared
        exact ⟨rfl, rfl⟩

theorem sameControls_applyBranchDisposition {state after : WorkflowTransition}
    {observation : BranchDispositionObservation}
    (h : applyBranchDisposition state observation = Except.ok after) :
    SameControls state after := by
  unfold applyBranchDisposition at h
  split at h
  · exact absurd h fail_ne_ok
  · rcases exists_of_bind_eq_ok h with ⟨_, _, hafter⟩
    cases hafter
    exact ⟨rfl, rfl⟩

theorem sameControls_applyDueResumption {state after : WorkflowTransition} {due : DueResumption}
    (h : applyDueResumption state due = Except.ok after) : SameControls state after := by
  unfold applyDueResumption at h
  split at h
  · cases h
    exact SameControls.refl state
  · rcases exists_of_bind_eq_ok h with ⟨_, _, hrest⟩
    split at hrest
    · cases hrest
      exact SameControls.refl state
    · rcases exists_of_bind_eq_ok hrest with ⟨_, _, hrest⟩
      rcases exists_of_bind_eq_ok hrest with ⟨_, _, hdone⟩
      cases hdone
      unfold WorkflowTransition.resumeRun
      split
      · exact ⟨rfl, rfl⟩
      · exact ⟨rfl, rfl⟩

theorem controls_started {state resumed : WorkflowTransition}
    {dueResumptions : List DueResumption} {observations : List WorkflowObservation}
    {occurredAt : Timestamp}
    (h : dueResumptions.foldlM applyDueResumption (applyControlFacts state observations) =
      Except.ok resumed) :
    (startRun resumed occurredAt).loops = state.loops ∧
      (startRun resumed occurredAt).cancelRequested =
        (state.cancelRequested || observations.contains .cancelRequested) := by
  have hdue := foldlM_relation SameControls SameControls.refl (fun _ _ _ => SameControls.trans)
    (fun _ _ _ _ hstep => sameControls_applyDueResumption hstep) h
  have hstart : SameControls resumed (startRun resumed occurredAt) := by
    unfold startRun
    split
    · exact ⟨rfl, rfl⟩
    · exact SameControls.refl resumed
  have hall := hdue.trans hstart
  exact ⟨hall.loops, hall.cancelRequested⟩

structure LoopState.IsFresh (loop : LoopState) : Prop where
  completedPrefix : loop.completedPrefix = 0
  activeOrdinals : loop.activeOrdinals = []
  terminalOrdinals : loop.terminalOrdinals = []

/-- A declaration is passed over, repeats a known one, or settles the control. -/
inductive LoopStartCase (state : WorkflowTransition) (fact : LoopStartedObservation)
    (after : WorkflowTransition) : Prop where
  | passed (hclosed : state.cancelRequested = true ∨
      isFinishedIterationScope state.loops.items (some fact.branchPath)
        (some fact.iterationPath) = true)
      (hafter : after = state)
  | known (loop : LoopState) (hloop : loop ∈ state.loops)
      (hkey : loop.controlInvocationKey = fact.controlInvocationKey) (hafter : after = state)
  | settled (control : InvocationState) (hcontrol : control ∈ after.invocations)
      (hkey : control.invocationKey = fact.controlInvocationKey)
      (hresting : isRestingStatus control.status = true)
      (hcancel : after.cancelRequested = state.cancelRequested)
      (hloops : after.loops = state.loops ∨
        exists declared : LoopState, declared.controlInvocationKey = fact.controlInvocationKey ∧
          declared.IsFresh ∧ after.loops = state.loops.set declared)

theorem loopStartCase_of_failLoopControl {state after : WorkflowTransition}
    {fact : LoopStartedObservation} {occurredAt : Timestamp}
    (h : failLoopControl state fact.controlInvocationKey occurredAt = Except.ok after) :
    LoopStartCase state fact after := by
  unfold failLoopControl at h
  split at h
  · exact absurd h fail_ne_ok
  · rename_i control hget
    have hkey := Keyed.key_of_get? hget
    split at h
    · exact absurd h fail_ne_ok
    · cases h
      apply LoopStartCase.settled { control with status := .failed }
      · exact Keyed.mem_set.mpr (Or.inl rfl)
      · exact hkey
      · rfl
      · rfl
      · exact Or.inl rfl

theorem loopStartCase_of_declareLoop {state after : WorkflowTransition}
    {fact : LoopStartedObservation} {budget : Nat} {declared : LoopState}
    (hcontrol : exists control, control ∈ state.invocations ∧
      control.invocationKey = fact.controlInvocationKey)
    (hdeclared : createLoopState fact budget = Except.ok declared)
    (h : declareLoop state fact declared = Except.ok after) : LoopStartCase state fact after := by
  have hspec : declared.controlInvocationKey = fact.controlInvocationKey ∧ declared.IsFresh := by
    unfold createLoopState at hdeclared
    split at hdeclared
    · exact absurd hdeclared fail_ne_ok
    · split at hdeclared
      · exact absurd hdeclared fail_ne_ok
      · cases hdeclared
        exact ⟨rfl, rfl, rfl, rfl⟩
  unfold declareLoop at h
  dsimp only at h
  split at h
  · rename_i hmissing
    rcases hcontrol with ⟨control, hmem, hkey⟩
    exact absurd hkey (Keyed.get?_eq_none_iff.mp hmissing control hmem)
  · rename_i control hget
    have hkey := Keyed.key_of_get? hget
    split at h
    · exact absurd h fail_ne_ok
    · rcases exists_of_bind_eq_ok h with ⟨_, _, hdone⟩
      cases hdone
      apply LoopStartCase.settled
        { control with status := .waiting, output := some fact.collection }
      · exact Keyed.mem_set.mpr (Or.inl rfl)
      · exact hkey
      · rfl
      · rfl
      · exact Or.inr ⟨declared, hspec.left, hspec.right, rfl⟩

theorem loopStartCase_of_applyLoopStart {state after : WorkflowTransition}
    {fact : LoopStartedObservation} {occurredAt : Timestamp}
    (hcontrol : exists control, control ∈ state.invocations ∧
      control.invocationKey = fact.controlInvocationKey)
    (h : applyLoopStart state fact occurredAt = Except.ok after) :
    LoopStartCase state fact after := by
  unfold applyLoopStart at h
  split at h
  · rename_i hpassed
    cases h
    rw [Bool.or_eq_true] at hpassed
    exact LoopStartCase.passed hpassed rfl
  · split at h
    · rename_i loop hget
      rcases exists_of_bind_eq_ok h with ⟨_, _, hrest⟩
      rcases exists_of_bind_eq_ok hrest with ⟨_, _, hdone⟩
      cases hdone
      exact LoopStartCase.known loop (Keyed.mem_of_get? hget) (Keyed.key_of_get? hget) rfl
    · split at h
      · split at h
        · cases h
        · exact loopStartCase_of_failLoopControl h
      · rename_i declared hdeclared
        exact loopStartCase_of_declareLoop hcontrol hdeclared h

structure Follows (loop source : LoopState) : Prop where
  controlInvocationKey : loop.controlInvocationKey = source.controlInvocationKey
  loopId : loop.loopId = source.loopId
  branchPath : loop.branchPath = source.branchPath
  iterationPath : loop.iterationPath = source.iterationPath
  completedPrefix : loop.completedPrefix = source.completedPrefix
  terminal : forall ordinal, ordinal ∈ loop.terminalOrdinals ->
    ordinal ∈ source.terminalOrdinals

theorem Follows.refl (loop : LoopState) : Follows loop loop :=
  ⟨rfl, rfl, rfl, rfl, rfl, fun _ h => h⟩

theorem Follows.trans {first second third : LoopState} (h : Follows first second)
    (h' : Follows second third) : Follows first third where
  controlInvocationKey := h.controlInvocationKey.trans h'.controlInvocationKey
  loopId := h.loopId.trans h'.loopId
  branchPath := h.branchPath.trans h'.branchPath
  iterationPath := h.iterationPath.trans h'.iterationPath
  completedPrefix := h.completedPrefix.trans h'.completedPrefix
  terminal := fun ordinal hmem => h'.terminal ordinal (h.terminal ordinal hmem)

theorem follows_finishOrdinal (fact : LoopIterationCompletedObservation) (loop : LoopState) :
    Follows loop (finishOrdinal fact loop) := by
  unfold finishOrdinal
  split
  · exact ⟨rfl, rfl, rfl, rfl, rfl, fun _ hmem => List.mem_append_left _ hmem⟩
  · exact Follows.refl loop

theorem finishOrdinal_of_key {fact : LoopIterationCompletedObservation} {loop : LoopState}
    (h : loop.controlInvocationKey = fact.controlInvocationKey) :
    finishOrdinal fact loop =
      { loop with terminalOrdinals := loop.terminalOrdinals ++ [fact.ordinal] } := by
  rw [finishOrdinal, if_pos (beq_iff_eq.mpr h)]

theorem loopFinishesScope_follows {loop source : LoopState} (h : Follows loop source)
    {branchPath : Option BranchPath} {iterationPath : Option IterationPath}
    (hfinishes : loopFinishesScope branchPath iterationPath loop = true) :
    loopFinishesScope branchPath iterationPath source = true := by
  unfold loopFinishesScope at hfinishes ⊢
  rw [h.iterationPath] at hfinishes
  cases hpart : (iterationPath.getD [])[source.iterationPath.length]? with
  | none =>
      rw [hpart] at hfinishes
      cases hfinishes
  | some part =>
      rw [hpart] at hfinishes
      dsimp only at hfinishes ⊢
      rw [h.loopId, h.branchPath, h.completedPrefix] at hfinishes
      simp only [Bool.and_eq_true, Bool.or_eq_true, List.contains_iff_mem] at hfinishes ⊢
      rcases hfinishes with ⟨hscope, hleading | hterminal⟩
      · exact ⟨hscope, Or.inl hleading⟩
      · exact ⟨hscope, Or.inr (h.terminal _ hterminal)⟩

theorem sameControls_stopFailedLoopControl {state after : WorkflowTransition} {loop : LoopState}
    {observation : LoopIterationCompletedObservation} {occurredAt : Timestamp}
    (h : stopFailedLoopControl state loop observation occurredAt = Except.ok after) :
    SameControls state after := by
  unfold stopFailedLoopControl at h
  split at h
  · split at h
    · exact absurd h fail_ne_ok
    · split at h
      · exact absurd h fail_ne_ok
      · rcases exists_of_bind_eq_ok h with ⟨_, _, hafter⟩
        cases hafter
        exact ⟨rfl, rfl⟩
  · cases h
    exact SameControls.refl state

theorem loops_applyLoopCompletion {state after : WorkflowTransition}
    {fact : LoopIterationCompletedObservation} {occurredAt : Timestamp}
    (h : applyLoopCompletion state fact occurredAt = Except.ok after) :
    after.cancelRequested = state.cancelRequested ∧
      (after.loops = state.loops ∨
        exists loop settled, loop ∈ state.loops ∧ fact.ordinal ∈ loop.activeOrdinals ∧
          loop.controlInvocationKey = fact.controlInvocationKey ∧
          Follows settled (finishOrdinal fact loop) ∧ after.loops = state.loops.set settled) := by
  unfold applyLoopCompletion at h
  split at h
  · exact absurd h fail_ne_ok
  · rename_i loop hget
    have hkey : loop.controlInvocationKey = fact.controlInvocationKey := Keyed.key_of_get? hget
    split at h
    · exact absurd h fail_ne_ok
    · split at h
      · cases h
        exact ⟨rfl, Or.inl rfl⟩
      · split at h
        · exact absurd h fail_ne_ok
        · split at h
          · split at h
            · cases h
              exact ⟨rfl, Or.inl rfl⟩
            · rcases exists_of_bind_eq_ok h with ⟨_, _, hafter⟩
              cases hafter
              exact ⟨rfl, Or.inl rfl⟩
          · unfold completeIteration at h
            rcases exists_of_bind_eq_ok h with ⟨_, _, hrest⟩
            rcases exists_of_bind_eq_ok hrest with ⟨completed, hcompleted, hrest⟩
            rcases exists_of_bind_eq_ok hrest with ⟨stopped, hstopped, hrest⟩
            rcases exists_of_bind_eq_ok hrest with ⟨_, _, hdone⟩
            cases hdone
            have hcontrols := sameControls_stopFailedLoopControl hstopped
            have hfinished : fact.ordinal ∈ loop.activeOrdinals ∧
                Follows completed (finishOrdinal fact loop) := by
              rw [finishOrdinal_of_key hkey]
              unfold completeLoopIteration at hcompleted
              split at hcompleted
              · exact absurd hcompleted fail_ne_ok
              · rename_i hactive
                cases hcompleted
                refine ⟨?_, rfl, rfl, rfl, rfl, rfl, fun _ hmem => mem_sortWith.mp hmem⟩
                simpa using hactive
            rcases hfinished with ⟨hactive, hfinished⟩
            refine ⟨hcontrols.cancelRequested, Or.inr ⟨loop, _, Keyed.mem_of_get? hget, hactive,
              hkey, ?_, hcontrols.loops⟩⟩
            split
            · exact hfinished
            · exact ⟨hfinished.controlInvocationKey, hfinished.loopId, hfinished.branchPath,
                hfinished.iterationPath, hfinished.completedPrefix, hfinished.terminal⟩

end Engine
end Pertexo
