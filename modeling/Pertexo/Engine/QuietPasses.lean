import Pertexo.Engine.Plan
import Pertexo.Engine.Scopes

/-!
# Passes that keep every scope

## Facts about one invocation
-/

namespace Pertexo
namespace Engine

open Library
open Values

@[simp] theorem InvocationState.withStatus_scope (invocation : InvocationState)
    (status : NodeStatus) : (invocation.withStatus status).scope = invocation.scope := by
  rfl

theorem isRestingStatus_of_terminal {status : NodeStatus}
    (h : isTerminalNodeStatus status = true) : isRestingStatus status = true := by
  rw [isRestingStatus, h]
  rfl

theorem mem_of_requireInvocation {state : WorkflowTransition} {invocationKey : String}
    {existing : InvocationState}
    (h : requireInvocation state invocationKey = Except.ok existing) :
    existing ∈ state.invocations ∧ existing.invocationKey = invocationKey := by
  unfold requireInvocation at h
  cases hget : state.invocations.get? invocationKey with
  | none =>
      rw [hget] at h
      exact absurd h fail_ne_ok
  | some found =>
      rw [hget] at h
      injection h with hfound
      rw [← hfound]
      exact ⟨Keyed.mem_of_get? hget, Keyed.key_of_get? hget⟩

theorem Quiet.rest {state : WorkflowTransition} {existing : InvocationState}
    (hexisting : existing ∈ state.invocations) (updated : InvocationState)
    (hscope : updated.scope = existing.scope)
    (hattempt : updated.attemptNumber = existing.attemptNumber)
    (hsettles : NodeSettles existing.status updated.status)
    (hresting : isRestingStatus updated.status = true) :
    Quiet state (state.setInvocation updated) :=
  Quiet.setInvocation hexisting updated hscope
    (Progresses.rest hscope hattempt hsettles hresting)

theorem nodeSettles_of_assert {source target : NodeStatus} {u : Unit}
    (h : assertNodeTransition source target = Except.ok u)
    (hresting : isRestingStatus target = true) : NodeSettles source target :=
  NodeSettles.single (assertNodeTransition_eq_ok_iff.mp h) hresting

theorem quiet_applyDeclarationStart {state after : WorkflowTransition}
    {existing : InvocationState} {waitKind : WaitKind} {occurredAt : Timestamp}
    (hexisting : existing ∈ state.invocations)
    (h : applyDeclarationStart state existing waitKind occurredAt = Except.ok after) :
    Quiet state after := by
  unfold applyDeclarationStart at h
  split at h
  · cases h
    exact Quiet.refl state
  · split at h
    · cases h
      exact Quiet.refl state
    · rcases exists_of_bind_eq_ok h with ⟨_, hassert, hafter⟩
      cases hafter
      apply Quiet.withDraft
      exact Quiet.rest hexisting _ rfl rfl (nodeSettles_of_assert hassert rfl) rfl

theorem quiet_applyWait {state after : WorkflowTransition} {existing : InvocationState}
    {observation : WaitObservation} {occurredAt : Timestamp}
    (hexisting : existing ∈ state.invocations)
    (h : applyWait state existing observation occurredAt = Except.ok after) :
    Quiet state after := by
  unfold applyWait at h
  rcases exists_of_bind_eq_ok h with ⟨_, hassert, hwaited⟩
  have hsettles := nodeSettles_of_assert hassert rfl
  dsimp only at hwaited
  split at hwaited
  · cases hwaited
    apply Quiet.withDraft
    exact Quiet.rest hexisting _ rfl rfl hsettles rfl
  · cases hwaited
    exact Quiet.rest hexisting _ rfl rfl hsettles rfl

theorem quiet_selectFailureHandler {state after : WorkflowTransition}
    {source : InvocationState} {failure : WorkflowNodeFailureValue} {occurredAt : Timestamp}
    (hsource : source ∈ state.invocations)
    (h : selectFailureHandler state source failure occurredAt = Except.ok after) :
    Quiet state after := by
  unfold selectFailureHandler at h
  split at h
  · cases h
    exact Quiet.refl state
  · split at h
    · cases h
      exact Quiet.refl state
    · rcases exists_of_bind_eq_ok h with ⟨_, _, h⟩
      rcases exists_of_bind_eq_ok h with ⟨_, _, h⟩
      rcases exists_of_bind_eq_ok h with ⟨_, _, h⟩
      rcases exists_of_bind_eq_ok h with ⟨sinkInvocationKey, _, h⟩
      rcases exists_of_bind_eq_ok h with ⟨entryInvocationKey, _, h⟩
      cases h
      have hrouted := Quiet.setInvocation hsource
        { source with
          failureHandling :=
            some { sinkInvocationKey := sinkInvocationKey, disposition := .pending } }
        rfl (Progresses.of_eq rfl rfl rfl rfl)
      exact hrouted.trans (Quiet.of_eq rfl rfl rfl rfl Relation.ReflTransGen.refl)

def settledInvocation (existing : InvocationState) (observation : OutcomeObservation) :
    InvocationState :=
  { existing.withStatus observation.status with
    output := observation.output <|> existing.output }

/-- An outcome is repeated, or it is stored before its failure handler is selected. -/
theorem applyTerminalObservation_cases {state after : WorkflowTransition}
    {existing : InvocationState} {observation : OutcomeObservation} {occurredAt : Timestamp}
    (h : applyTerminalObservation state existing observation occurredAt = Except.ok after) :
    (after = state ∧ isTerminalNodeStatus existing.status = true) ∨
      observation.status ∈ nodeTransitions existing.status ∧ exists drafted,
        (drafted = state.setInvocation (settledInvocation existing observation) ∨
          exists draft,
            drafted =
              (state.setInvocation (settledInvocation existing observation)).addDraft draft) ∧
        (after = drafted ∨
          exists failure,
            selectFailureHandler drafted (settledInvocation existing observation) failure
              occurredAt = Except.ok after) := by
  unfold applyTerminalObservation at h
  split at h
  · rename_i hterminal
    apply Or.inl
    split at h
    · cases h
      exact ⟨rfl, hterminal⟩
    · rcases exists_of_bind_eq_ok h with ⟨_, _, hafter⟩
      cases hafter
      exact ⟨rfl, hterminal⟩
  · apply Or.inr
    split at h
    · exact absurd h fail_ne_ok
    · rcases exists_of_bind_eq_ok h with ⟨_, hassert, hsettled⟩
      refine ⟨assertNodeTransition_eq_ok_iff.mp hassert, ?_⟩
      dsimp only at hsettled
      split at hsettled
      · exact absurd hsettled fail_ne_ok
      · rename_i eventName _
        -- the event is drafted only for the facts the coordinator derived
        refine ⟨if observation.coordinatorDerived = true then
            (state.setInvocation (settledInvocation existing observation)).addDraft
              (transitionEvent eventName occurredAt
                (some (settledInvocation existing observation)) observation.reasonCode)
          else state.setInvocation (settledInvocation existing observation), ?_, ?_⟩
        · split
          · exact Or.inr ⟨_, rfl⟩
          · exact Or.inl rfl
        · split at hsettled
          · split at hsettled
            · exact Or.inr ⟨_, hsettled⟩
            · cases hsettled
              exact Or.inl rfl
          · cases hsettled
            exact Or.inl rfl

theorem quiet_applyTerminalObservation {state after : WorkflowTransition}
    {existing : InvocationState} {observation : OutcomeObservation} {occurredAt : Timestamp}
    (hexisting : existing ∈ state.invocations)
    (hterminal : isTerminalNodeStatus observation.status = true)
    (h : applyTerminalObservation state existing observation occurredAt = Except.ok after) :
    Quiet state after := by
  rcases applyTerminalObservation_cases h with
    ⟨rfl, _⟩ | ⟨htransition, drafted, hdrafted, hafter⟩
  · exact Quiet.refl _
  · have hresting := isRestingStatus_of_terminal hterminal
    have hsettled := Quiet.rest hexisting (settledInvocation existing observation) rfl rfl
      (NodeSettles.single htransition hresting) hresting
    have hstored : Quiet state drafted ∧
        settledInvocation existing observation ∈ drafted.invocations := by
      rcases hdrafted with rfl | ⟨draft, rfl⟩
      · exact ⟨hsettled, Keyed.mem_set.mpr (Or.inl rfl)⟩
      · exact ⟨hsettled.withDraft draft, Keyed.mem_set.mpr (Or.inl rfl)⟩
    rcases hafter with rfl | ⟨failure, hselected⟩
    · exact hstored.left
    · exact hstored.left.trans (quiet_selectFailureHandler hstored.right hselected)

/-!
## Joins and selections
-/

theorem quiet_applyBranchDisposition {state after : WorkflowTransition}
    {observation : BranchDispositionObservation}
    (h : applyBranchDisposition state observation = Except.ok after) : Quiet state after := by
  unfold applyBranchDisposition at h
  split at h
  · exact absurd h fail_ne_ok
  · rcases exists_of_bind_eq_ok h with ⟨_, _, hafter⟩
    cases hafter
    exact Quiet.setJoin _ _

theorem quiet_applyBranchSelection {state after : WorkflowTransition}
    {observation : BranchSelectedObservation}
    (h : applyBranchSelection state observation = Except.ok after) : Quiet state after := by
  unfold applyBranchSelection at h
  split at h
  · cases h
    exact Quiet.refl state
  · rcases exists_of_bind_eq_ok h with ⟨_, _, h⟩
    dsimp only at h
    split at h
    · rcases exists_of_bind_eq_ok h with ⟨_, _, hafter⟩
      cases hafter
      exact Quiet.refl state
    · cases h
      exact Quiet.of_eq rfl rfl rfl rfl Relation.ReflTransGen.refl

theorem progresses_satisfied {invocation : InvocationState} (h : invocation.status = .pending) :
    Progresses invocation { invocation with status := .ready } where
  key := rfl
  attempt := rfl
  settles := by
    rw [h]
    exact Relation.ReflTransGen.single
      (show NodeStatus.ready ∈ settlingTransitions .pending by decide)
  runs := by
    intro hrunning
    cases hrunning

theorem quiet_settlePendingJoin {occurredAt : Timestamp} {state after : WorkflowTransition}
    {join : JoinState} (h : settlePendingJoin occurredAt state join = Except.ok after) :
    Quiet state after := by
  unfold settlePendingJoin at h
  split at h
  · cases h
    exact Quiet.refl state
  · rcases exists_of_bind_eq_ok h with ⟨decision, _, h⟩
    cases decision with
    | waiting =>
        cases h
        exact Quiet.refl state
    | satisfied selectedBranchIds ledger =>
        dsimp only at h
        split at h
        · exact absurd h fail_ne_ok
        · rename_i invocation hget
          cases h
          have hmem := Keyed.mem_of_get? hget
          unfold settleSatisfiedJoin
          dsimp only
          split
          · rename_i hpending
            have hstatus : invocation.status = .pending := by
              simpa using hpending
            apply Quiet.withDraft
            apply Quiet.trans (Quiet.setJoin state _)
            apply Quiet.setInvocation
            · exact hmem
            · rfl
            · exact progresses_satisfied hstatus
          · exact Quiet.setJoin _ _
    | unsatisfied reasonCode ledger =>
        dsimp only at h
        split at h
        · exact absurd h fail_ne_ok
        · rename_i invocation hget
          cases h
          have hmem := Keyed.mem_of_get? hget
          unfold settleUnsatisfiedJoin
          dsimp only
          split
          · exact Quiet.setJoin _ _
          · rename_i hpending
            have hopen : isTerminalNodeStatus invocation.status = false := by
              have hstatus : invocation.status = .pending := by
                simpa using hpending
              rw [hstatus]
              rfl
            apply Quiet.withDraft
            apply Quiet.trans ((Quiet.setJoin state _).withDraft _)
            apply Quiet.rest
            · exact hmem
            · rfl
            · rfl
            -- the join step is taken to its failure through ready and running
            · apply NodeSettles.of_open hopen
              show NodeStatus.failed ∈ nodeTransitions .running
              decide
            · rfl

theorem quiet_settlePendingJoins {state after : WorkflowTransition} {occurredAt : Timestamp}
    (h : settlePendingJoins state occurredAt = Except.ok after) : Quiet state after :=
  Quiet.foldlM (fun _ _ _ _ hstep => quiet_settlePendingJoin hstep) h

/-!
## Iterations of loops
-/

theorem narrows_completeLoopIteration {loop completed : LoopState} {ordinal : Nat}
    (h : completeLoopIteration loop ordinal = Except.ok completed) : completed.Narrows loop := by
  unfold completeLoopIteration at h
  split at h
  · exact absurd h fail_ne_ok
  · rename_i hcontains
    have hactive : ordinal ∈ loop.activeOrdinals := by
      simpa using hcontains
    cases h
    have hkept : forall other,
        other ∈ sortOrdinals (loop.activeOrdinals.filter fun current => current != ordinal) ↔
          other ∈ loop.activeOrdinals ∧ other ≠ ordinal := by
      intro other
      simp [sortOrdinals, List.mem_filter]
    constructor
    · refine ⟨rfl, rfl, rfl, rfl, rfl, ?_⟩
      intro other hother
      exact ((hkept other).mp hother).left
    · exact List.Perm.refl _
    · intro other hother
      have hterminal : other ∈ loop.terminalOrdinals ∨ other = ordinal := by
        simpa [sortOrdinals] using hother
      rcases hterminal with hold | rfl
      · exact Or.inl hold
      · exact Or.inr ⟨hactive, fun hmem => ((hkept other).mp hmem).right rfl⟩
    · exact fun _ hstatus => Or.inl hstatus
    · rfl
    · rfl

theorem LoopState.Narrows.withTerminalStatus {narrow wide : LoopState} (h : narrow.Narrows wide)
    (recorded : Option NodeStatus)
    (hrecorded : forall status, recorded = some status ->
      wide.terminalStatus = some status ∨ isLoopTerminalStatus status = true) :
    LoopState.Narrows { narrow with terminalStatus := recorded } wide :=
  ⟨h.window, h.bodyRootNodeIds, h.terminal, hrecorded, h.collectionSize, h.maxIterations⟩

theorem quiet_stopFailedLoopControl {state after : WorkflowTransition} {loop : LoopState}
    {observation : LoopIterationCompletedObservation} {occurredAt : Timestamp}
    (hterminal : isTerminalNodeStatus observation.status = true)
    (h : stopFailedLoopControl state loop observation occurredAt = Except.ok after) :
    Quiet state after := by
  unfold stopFailedLoopControl at h
  split at h
  · split at h
    · exact absurd h fail_ne_ok
    · rename_i control hget
      split at h
      · exact absurd h fail_ne_ok
      · rcases exists_of_bind_eq_ok h with ⟨_, hassert, hafter⟩
        have hresting := isRestingStatus_of_terminal hterminal
        cases hafter
        apply Quiet.withDraft
        exact Quiet.rest (Keyed.mem_of_get? hget) _ rfl rfl
          (nodeSettles_of_assert hassert hresting) hresting
  · cases h
    exact Quiet.refl state

theorem nodeSettles_of_assertIterationSettles {iteration : InvocationState} {status : NodeStatus}
    {u : Unit} (hterminal : isTerminalNodeStatus status = true)
    (h : assertIterationSettles iteration status = Except.ok u) :
    NodeSettles iteration.status status := by
  unfold assertIterationSettles at h
  split at h
  · rename_i hsame
    rw [Bool.and_eq_true, beq_iff_eq] at hsame
    rw [hsame.right]
    exact Relation.ReflTransGen.refl
  · exact nodeSettles_of_assert h (isRestingStatus_of_terminal hterminal)

theorem quiet_completeIteration {state after : WorkflowTransition} {loop : LoopState}
    {iteration : InvocationState} {observation : LoopIterationCompletedObservation}
    {occurredAt : Timestamp} (hloop : loop ∈ state.loops)
    (hiteration : iteration ∈ state.invocations)
    (hterminal : isTerminalNodeStatus observation.status = true)
    (h : completeIteration state loop iteration observation occurredAt = Except.ok after) :
    Quiet state after := by
  unfold completeIteration at h
  rcases exists_of_bind_eq_ok h with ⟨_, hiterationSettles, h⟩
  rcases exists_of_bind_eq_ok h with ⟨completedLoop, hcompleted, h⟩
  rcases exists_of_bind_eq_ok h with ⟨stopped, hstopped, h⟩
  rcases exists_of_bind_eq_ok h with ⟨_, _, h⟩
  cases h
  apply Quiet.trans _ (quiet_stopFailedLoopControl hterminal hstopped)
  have hnarrow := narrows_completeLoopIteration hcompleted
  have hset := Quiet.rest hiteration
    { iteration.withStatus observation.status with
      output := observation.output <|> iteration.output }
    rfl rfl (nodeSettles_of_assertIterationSettles hterminal hiterationSettles)
    (isRestingStatus_of_terminal hterminal)
  apply hset.trans
  apply Quiet.setLoop
  · exact hloop
  · split
    · exact hnarrow
    · rename_i habnormal
      have hstop : isLoopTerminalStatus observation.status = true :=
        isLoopTerminal_of_terminal hterminal (Bool.not_eq_true _ ▸ habnormal)
      apply hnarrow.withTerminalStatus
      intro status hstatus
      cases hrecorded : loop.terminalStatus with
      | none =>
          rw [hrecorded] at hstatus
          cases hstatus
          exact Or.inr hstop
      | some recorded =>
          rw [hrecorded] at hstatus
          cases hstatus
          exact Or.inl rfl

theorem quiet_applyLoopCompletion {state after : WorkflowTransition}
    {observation : LoopIterationCompletedObservation} {occurredAt : Timestamp}
    (hterminal : isTerminalNodeStatus observation.status = true)
    (h : applyLoopCompletion state observation occurredAt = Except.ok after) :
    Quiet state after := by
  unfold applyLoopCompletion at h
  split at h
  · exact absurd h fail_ne_ok
  · rename_i loop hloop
    split at h
    · exact absurd h fail_ne_ok
    · split at h
      · cases h
        exact Quiet.refl state
      · split at h
        · exact absurd h fail_ne_ok
        · rename_i iteration hiteration
          split at h
          · split at h
            · cases h
              exact Quiet.refl state
            · rcases exists_of_bind_eq_ok h with ⟨_, _, hafter⟩
              cases hafter
              exact Quiet.refl state
          · exact quiet_completeIteration (Keyed.mem_of_get? hloop)
              (Keyed.mem_of_get? hiteration) hterminal h

theorem quiet_completeExhaustedLoop {state after : WorkflowTransition} {loop : LoopState}
    {occurredAt : Timestamp} (h : completeExhaustedLoop state loop occurredAt = Except.ok after) :
    Quiet state after := by
  unfold completeExhaustedLoop at h
  split at h
  · cases h
    exact Quiet.refl state
  · split at h
    · exact absurd h fail_ne_ok
    · rename_i parent hparent
      have hmem := Keyed.mem_of_get? hparent
      have hsucceeds : forall {source : NodeStatus}, isTerminalNodeStatus source = false ->
          NodeSettles source .succeeded := by
        intro source hopen
        exact NodeSettles.of_open hopen (by decide)
      split at h
      · rename_i hwaiting
        cases h
        apply Quiet.withDraft
        apply Quiet.rest
        · exact hmem
        · rfl
        · rfl
        · rw [beq_iff_eq.mp hwaiting]
          exact hsucceeds rfl
        · rfl
      · split at h
        · rename_i hpending
          cases h
          apply Quiet.withDraft
          apply Quiet.withDraft
          apply Quiet.rest
          · exact hmem
          · rfl
          · rfl
          · rw [beq_iff_eq.mp hpending]
            exact hsucceeds rfl
          · rfl
        · cases h
          exact Quiet.refl state

theorem loops_completeExhaustedLoop {state after : WorkflowTransition} {loop : LoopState}
    {occurredAt : Timestamp} (h : completeExhaustedLoop state loop occurredAt = Except.ok after) :
    after.loops = state.loops := by
  unfold completeExhaustedLoop at h
  split at h
  · cases h
    rfl
  · split at h
    · exact absurd h fail_ne_ok
    · split at h
      · cases h
        rfl
      · split at h
        · cases h
          rfl
        · cases h
          rfl

theorem quiet_failLoopControl {state after : WorkflowTransition} {controlInvocationKey : String}
    {occurredAt : Timestamp}
    (h : failLoopControl state controlInvocationKey occurredAt = Except.ok after) :
    Quiet state after := by
  unfold failLoopControl at h
  split at h
  · exact absurd h fail_ne_ok
  · rename_i control hget
    split at h
    · exact absurd h fail_ne_ok
    · rename_i hrunning
      cases h
      have hstatus : control.status = .running := by
        simpa using hrunning
      apply Quiet.withDraft
      apply Quiet.rest
      · exact Keyed.mem_of_get? hget
      · rfl
      · rfl
      · rw [hstatus]
        exact NodeSettles.single
          (show NodeStatus.failed ∈ nodeTransitions .running by decide) rfl
      · rfl

/-!
## Passes over the records of an earlier state

A pass that walks over the records of the state it started from changes, at each
of them, only that record.
-/

structure OwnStep {α : Type} (member : WorkflowTransition -> α -> Prop) (key : α -> String)
    (own : String) (before after : WorkflowTransition) : Prop extends Quiet before after where
  others : forall other, member before other -> key other ≠ own -> member after other

abbrev InvocationStep :=
  OwnStep (fun state invocation => invocation ∈ state.invocations) InvocationState.invocationKey

abbrev LoopStep :=
  OwnStep (fun state loop => loop ∈ state.loops) LoopState.controlInvocationKey

section

variable {α : Type} {member : WorkflowTransition -> α -> Prop} {key : α -> String}

theorem OwnStep.refl (own : String) (state : WorkflowTransition) :
    OwnStep member key own state state where
  toQuiet := Quiet.refl state
  others := fun _ h _ => h

theorem quiet_foldlM_own (member : WorkflowTransition -> α -> Prop) (key : α -> String)
    {step : WorkflowTransition -> α -> EngineResult WorkflowTransition}
    {items : List α} {start finish : WorkflowTransition}
    (hstep : forall item, item ∈ items -> forall before after, member before item ->
      step before item = Except.ok after -> OwnStep member key (key item) before after)
    (hmember : forall item, item ∈ items -> member start item) (hnodup : (items.map key).Nodup)
    (h : items.foldlM step start = Except.ok finish) : Quiet start finish := by
  induction items generalizing start with
  | nil =>
      rw [List.foldlM_nil, pure_eq_ok_iff] at h
      exact h ▸ Quiet.refl start
  | cons item rest ih =>
      rw [List.foldlM_cons] at h
      rcases exists_of_bind_eq_ok h with ⟨next, hnext, hrest⟩
      rw [List.map_cons, List.nodup_cons] at hnodup
      have hown := hstep item (List.mem_cons_self ..) start next
        (hmember item (List.mem_cons_self ..)) hnext
      have hrestMember : forall other, other ∈ rest -> member next other := by
        intro other hother
        apply hown.others other (hmember other (List.mem_cons_of_mem _ hother))
        intro hkey
        exact hnodup.left (hkey ▸ List.mem_map_of_mem hother)
      apply hown.toQuiet.trans (ih _ hrestMember hnodup.right hrest)
      intro other hother
      exact hstep other (List.mem_cons_of_mem _ hother)

end

theorem OwnStep.setInvocation {state : WorkflowTransition} {existing : InvocationState}
    (hexisting : existing ∈ state.invocations) (updated : InvocationState)
    (hscope : updated.scope = existing.scope) (hprogress : Progresses existing updated)
    (draft : EngineEventDraft) :
    InvocationStep existing.invocationKey state
      ((state.setInvocation updated).addDraft draft) where
  toQuiet := (Quiet.setInvocation hexisting updated hscope hprogress).withDraft draft
  others := by
    have hkey : updated.invocationKey = existing.invocationKey := congrArg StepScope.key hscope
    intro other hother hne
    exact Keyed.mem_set.mpr (Or.inr ⟨hother, hkey ▸ hne⟩)

theorem own_settleFailureHandler {occurredAt : Timestamp} {source : InvocationState}
    {before after : WorkflowTransition} (hsource : source ∈ before.invocations)
    (h : settleFailureHandler occurredAt before source = Except.ok after) :
    InvocationStep source.invocationKey before after := by
  unfold settleFailureHandler at h
  split at h
  · cases h
    exact OwnStep.refl _ _
  · split at h
    · cases h
      exact OwnStep.refl _ _
    · split at h
      · cases h
        exact OwnStep.refl _ _
      · dsimp only at h
        have hhandled : forall (handled : InvocationState) (draft : EngineEventDraft),
            handled.scope = source.scope -> Progresses source handled ->
            InvocationStep source.invocationKey before
              ((before.setInvocation handled).addDraft draft) := by
          intro handled draft hscope hprogress
          exact OwnStep.setInvocation hsource handled hscope hprogress draft
        split at h
        · rcases exists_of_bind_eq_ok h with ⟨_, _, h⟩
          rcases exists_of_bind_eq_ok h with ⟨_, _, h⟩
          cases h
          exact hhandled _ _ rfl (Progresses.of_eq rfl rfl rfl rfl)
        · rcases exists_of_bind_eq_ok h with ⟨_, _, h⟩
          rcases exists_of_bind_eq_ok h with ⟨_, _, h⟩
          cases h
          exact hhandled _ _ rfl (Progresses.of_eq rfl rfl rfl rfl)

theorem quiet_settleFailureHandlers {state after : WorkflowTransition} {occurredAt : Timestamp}
    (h : settleFailureHandlers state occurredAt = Except.ok after) : Quiet state after :=
  quiet_foldlM_own _ _ (fun _ _ _ _ hsource hstep => own_settleFailureHandler hsource hstep)
    (fun _ hitem => hitem) state.invocations.nodup h

/-!
## Stops
-/

theorem own_stopUnprotected {protectedControls : List String} {occurredAt : Timestamp}
    {invocation : InvocationState} {before after : WorkflowTransition}
    (hinvocation : invocation ∈ before.invocations)
    (h : stopUnprotected protectedControls occurredAt before invocation = Except.ok after) :
    InvocationStep invocation.invocationKey before after := by
  unfold stopUnprotected stopInvocation at h
  split at h
  · split at h
    · cases h
      exact OwnStep.refl _ _
    · rename_i status hstatus
      rcases exists_of_bind_eq_ok h with ⟨_, hassert, hafter⟩
      -- a stop moves an invocation to canceled or timed out
      have hresting : isRestingStatus status = true := by
        unfold requestedStopStatus at hstatus
        split at hstatus
        · cases hstatus
          rfl
        · split at hstatus
          · cases hstatus
          · split at hstatus
            · cases hstatus
              rfl
            · cases hstatus
              rfl
      cases hafter
      apply OwnStep.setInvocation hinvocation
      · rfl
      apply Progresses.rest
      · rfl
      · rfl
      · exact nodeSettles_of_assert hassert hresting
      · exact hresting
  · cases h
    exact OwnStep.refl _ _

theorem loops_stopInvocation {state after : WorkflowTransition} {invocation : InvocationState}
    {occurredAt : Timestamp} (h : stopInvocation state invocation occurredAt = Except.ok after) :
    after.loops = state.loops := by
  unfold stopInvocation at h
  split at h
  · cases h
    rfl
  · rcases exists_of_bind_eq_ok h with ⟨_, _, hafter⟩
    cases hafter
    rfl

theorem loops_stopUnprotected {protectedControls : List String} {occurredAt : Timestamp}
    {invocation : InvocationState} {before after : WorkflowTransition}
    (h : stopUnprotected protectedControls occurredAt before invocation = Except.ok after) :
    after.loops = before.loops := by
  unfold stopUnprotected at h
  split at h
  · exact loops_stopInvocation h
  · cases h
    rfl

theorem quiet_stopLoopIteration {occurredAt : Timestamp} {state after : WorkflowTransition}
    {loop narrowed : LoopState} {ordinal : Nat}
    (h : stopLoopIteration occurredAt (state, loop) ordinal = Except.ok (after, narrowed)) :
    Quiet state after ∧ after.loops = state.loops ∧ narrowed.Narrows loop := by
  unfold stopLoopIteration at h
  rcases exists_of_bind_eq_ok h with ⟨_, _, h⟩
  rcases exists_of_bind_eq_ok h with ⟨stopped, hstopped, h⟩
  have hquiet := quiet_foldlM_own _ _
    (fun _ _ _ _ hinvocation hstep => own_stopUnprotected hinvocation hstep)
    (fun _ hitem => (List.mem_filter.mp hitem).left)
    ((List.filter_sublist.map _).nodup state.invocations.nodup) hstopped
  have hloops : stopped.loops = state.loops := by
    apply foldlM_relation (fun before after : WorkflowTransition => after.loops = before.loops)
      (fun _ => rfl) (fun _ _ _ hst htu => htu.trans hst) _ hstopped
    intro _ _ _ _ hstep
    exact loops_stopUnprotected hstep
  split at h
  · rcases exists_of_bind_eq_ok h with ⟨completed, hcompleted, h⟩
    cases h
    exact ⟨hquiet, hloops, narrows_completeLoopIteration hcompleted⟩
  · cases h
    exact ⟨hquiet, hloops, LoopState.Narrows.refl loop⟩

theorem quiet_stopLoopIterations {occurredAt : Timestamp} {ordinals : List Nat} :
    forall {start finish : WorkflowTransition × LoopState},
      ordinals.foldlM (stopLoopIteration occurredAt) start = Except.ok finish ->
      Quiet start.fst finish.fst ∧ finish.fst.loops = start.fst.loops ∧
        finish.snd.Narrows start.snd := by
  intro start finish h
  apply foldlM_relation
    (fun before after : WorkflowTransition × LoopState =>
      Quiet before.fst after.fst ∧ after.fst.loops = before.fst.loops ∧
        after.snd.Narrows before.snd) _ _ _ h
  · intro progress
    exact ⟨Quiet.refl _, rfl, LoopState.Narrows.refl _⟩
  · intro first second third hfirst hsecond
    exact ⟨hfirst.left.trans hsecond.left, hsecond.right.left.trans hfirst.right.left,
      hsecond.right.right.trans hfirst.right.right⟩
  · rintro ordinal _ ⟨state, loop⟩ ⟨after, narrowed⟩ hstep
    exact quiet_stopLoopIteration hstep

theorem quiet_stopSettledLoop {state : WorkflowTransition} {existing loop : LoopState}
    {stopStatus : NodeStatus} {occurredAt : Timestamp} (hexisting : existing ∈ state.loops)
    (hnarrow : loop.Narrows existing)
    (hterminal : isLoopTerminalStatus (loop.terminalStatus.getD stopStatus) = true) :
    Quiet state (stopSettledLoop state loop stopStatus occurredAt) := by
  unfold stopSettledLoop
  dsimp only
  have hclosed := Quiet.setLoop hexisting _
    (hnarrow.withTerminalStatus (some (loop.terminalStatus.getD stopStatus)) (by
      rintro _ ⟨⟩
      exact Or.inr hterminal))
  split
  · exact hclosed
  · rename_i control hget
    split
    · exact hclosed
    · rename_i hopen
      apply hclosed.trans
      apply Quiet.withDraft
      apply Quiet.rest
      · exact Keyed.mem_of_get? hget
      · rfl
      · rfl
      · exact NodeSettles.of_open (Bool.not_eq_true _ ▸ hopen)
          (mem_running_of_loopTerminal hterminal)
      · exact isRestingStatus_of_terminal (isTerminal_of_loopTerminal hterminal)

theorem loops_stopSettledLoop {state : WorkflowTransition} {loop : LoopState}
    {stopStatus : NodeStatus} {occurredAt : Timestamp} :
    (stopSettledLoop state loop stopStatus occurredAt).loops =
      state.loops.set
        { loop with terminalStatus := some (loop.terminalStatus.getD stopStatus) } := by
  unfold stopSettledLoop
  dsimp only
  split
  · rfl
  · split
    · rfl
    · rfl

theorem own_stopLoop {stopStatus : NodeStatus} {occurredAt : Timestamp} {loop : LoopState}
    {before after : WorkflowTransition} (hstop : isLoopTerminalStatus stopStatus = true)
    (hterminal : forall status, loop.terminalStatus = some status ->
      isLoopTerminalStatus status = true) (hloop : loop ∈ before.loops)
    (h : stopLoop stopStatus occurredAt before loop = Except.ok after) :
    LoopStep loop.controlInvocationKey before after := by
  unfold stopLoop at h
  split at h
  · cases h
    exact OwnStep.refl _ _
  · rcases exists_of_bind_eq_ok h with ⟨⟨stopped, narrowed⟩, hiterations, h⟩
    rcases quiet_stopLoopIterations hiterations with ⟨hquiet, hloops, hnarrow⟩
    dsimp only at hquiet hloops hnarrow h
    have hmem : loop ∈ stopped.loops := by
      rw [hloops]
      exact hloop
    split at h
    · cases h
      refine { toQuiet := hquiet.trans (Quiet.setLoop hmem narrowed hnarrow), others := ?_ }
      intro other hother hne
      refine Keyed.mem_set.mpr (Or.inr ⟨hloops.symm ▸ hother, ?_⟩)
      rw [show narrowed.controlInvocationKey = loop.controlInvocationKey from hnarrow.window.key]
      exact hne
    · cases h
      have hstatus : isLoopTerminalStatus (narrowed.terminalStatus.getD stopStatus) = true := by
        cases hrecorded : narrowed.terminalStatus with
        | none => exact hstop
        | some status =>
            rcases hnarrow.terminalStatus status hrecorded with hinitial | hsettled
            · exact hterminal status hinitial
            · exact hsettled
      refine { toQuiet := hquiet.trans (quiet_stopSettledLoop hmem hnarrow hstatus), others := ?_ }
      intro other hother hne
      show other ∈ (stopSettledLoop stopped narrowed stopStatus occurredAt).loops
      rw [loops_stopSettledLoop]
      refine Keyed.mem_set.mpr (Or.inr ⟨hloops.symm ▸ hother, ?_⟩)
      rw [show narrowed.controlInvocationKey = loop.controlInvocationKey from hnarrow.window.key]
      exact hne

theorem quiet_applyWorkflowStops {state after : WorkflowTransition} {occurredAt : Timestamp}
    (hterminal : forall loop, loop ∈ state.loops -> forall status,
      loop.terminalStatus = some status -> isLoopTerminalStatus status = true)
    (h : applyWorkflowStops state occurredAt = Except.ok after) : Quiet state after := by
  unfold applyWorkflowStops at h
  rcases exists_of_bind_eq_ok h with ⟨stopped, hstopped, hinvocations⟩
  have hrest := quiet_foldlM_own _ _
    (fun _ _ _ _ hinvocation hstep => own_stopUnprotected hinvocation hstep)
    (fun _ hitem => hitem) stopped.invocations.nodup hinvocations
  apply Quiet.trans _ hrest
  unfold stopLoops at hstopped
  split at hstopped
  · cases hstopped
    exact Quiet.refl state
  · rename_i stopStatus hstop
    have hstatus : isLoopTerminalStatus stopStatus = true := by
      unfold requestedControlStop at hstop
      split at hstop
      · cases hstop
        rfl
      · split at hstop
        · cases hstop
          rfl
        · cases hstop
    have hsorted := perm_sortWith
      (fun left right : LoopState =>
        (compare right.iterationPath.length left.iterationPath.length).then
          (compareOrdinal left.controlInvocationKey right.controlInvocationKey))
      state.loops.items
    apply quiet_foldlM_own (fun state loop => loop ∈ state.loops)
      LoopState.controlInvocationKey _ _ _ hstopped
    · intro loop hloop before after hmem hstep
      exact own_stopLoop hstatus (hterminal loop (hsorted.mem_iff.mp hloop)) hmem hstep
    · intro loop hloop
      exact hsorted.mem_iff.mp hloop
    · exact (hsorted.map _).nodup_iff.mpr state.loops.nodup

/-!
## Resumptions and the start of the run
-/

theorem quiet_resumeRun (state : WorkflowTransition) : Quiet state state.resumeRun := by
  unfold WorkflowTransition.resumeRun
  split
  · rename_i hwaiting
    apply Quiet.of_eq
    · rfl
    · rfl
    · rfl
    · rfl
    · rw [beq_iff_eq.mp hwaiting]
      exact Relation.ReflTransGen.single
        (show RunStatus.running ∈ runTransitions .waiting by decide)
  · exact Quiet.refl state

structure Resumes (before after : InvocationState) : Prop where
  key : after.invocationKey = before.invocationKey
  attempt : after.attemptNumber = before.attemptNumber
  changes : NodeChanges before.status after.status
  runs : after.status = .running -> after = before
  running : before.status = .running -> after = before

theorem Resumes.refl (invocation : InvocationState) : Resumes invocation invocation :=
  ⟨rfl, rfl, Relation.ReflTransGen.refl, fun _ => rfl, fun _ => rfl⟩

theorem Resumes.trans {first second third : InvocationState} (h : Resumes first second)
    (h' : Resumes second third) : Resumes first third where
  key := h'.key.trans h.key
  attempt := h'.attempt.trans h.attempt
  changes := h.changes.trans h'.changes
  runs := by
    intro hrunning
    have hsecond := h'.runs hrunning
    exact hsecond.trans (h.runs (hsecond ▸ hrunning))
  running := by
    intro hrunning
    have hsecond := h.running hrunning
    exact (h'.running (hsecond.symm ▸ hrunning)).trans hsecond

theorem Resumes.continues {before after : InvocationState} (h : Resumes before after) :
    Continues before after where
  key := h.key
  attempts := h.attempt.ge
  changes := h.changes
  runs := fun hrunning => Or.inr (h.runs hrunning ▸ hrunning)

theorem resumedInvocation_eq {invocation resumed : InvocationState}
    (h : resumedInvocation invocation = Except.ok resumed) :
    resumed = { invocation.withStatus .ready with waitKind := invocation.waitKind } := by
  unfold resumedInvocation at h
  split at h
  · exact absurd h fail_ne_ok
  · exact absurd h fail_ne_ok
  · cases h
    rfl

theorem resumes_resumedInvocation {invocation resumed : InvocationState}
    (htransition : NodeStatus.ready ∈ nodeTransitions invocation.status)
    (h : resumedInvocation invocation = Except.ok resumed) :
    resumed.scope = invocation.scope ∧ Resumes invocation resumed := by
  rw [resumedInvocation_eq h]
  refine ⟨rfl, rfl, rfl, Relation.ReflTransGen.single htransition, ?_, ?_⟩
  · intro hrunning
    cases hrunning
  · intro hrunning
    rw [hrunning] at htransition
    exact absurd htransition (by decide)

theorem resumes_applyDueResumption {state after : WorkflowTransition} {due : DueResumption}
    (h : applyDueResumption state due = Except.ok after) :
    SameScopes state after ∧ KeepsInvocations Resumes state after := by
  have hunchanged : SameScopes state state ∧ KeepsInvocations Resumes state state :=
    ⟨SameScopes.refl state, KeepsInvocations.of_subset Resumes.refl fun _ hmem => hmem⟩
  unfold applyDueResumption at h
  split at h
  · cases h
    exact hunchanged
  · rcases exists_of_bind_eq_ok h with ⟨existing, hexisting, h⟩
    have hmem := (mem_of_requireInvocation hexisting).left
    split at h
    · cases h
      exact hunchanged
    · rcases exists_of_bind_eq_ok h with ⟨_, hassert, h⟩
      rcases exists_of_bind_eq_ok h with ⟨resumed, hresumed, h⟩
      cases h
      rcases resumes_resumedInvocation (assertNodeTransition_eq_ok_iff.mp hassert) hresumed with
        ⟨hscope, hresumes⟩
      have hset := SameScopes.setInvocation hmem resumed hscope
      have hkeeps := KeepsInvocations.setInvocation Resumes.refl hmem hresumes.key hresumes
      -- the event and the status of the run leave the invocations as they are
      have hrest := (Quiet.addDraft (state.setInvocation resumed)
        (transitionEvent .nodeReady due.occurredAt (some resumed))).trans (quiet_resumeRun _)
      constructor
      · exact hset.trans hrest.toSameScopes
      · intro invocation hinvocation
        rcases hkeeps invocation hinvocation with ⟨kept, hkept, hrelated⟩
        refine ⟨kept, ?_, hrelated⟩
        unfold WorkflowTransition.resumeRun
        split
        · exact hkept
        · exact hkept

theorem resumes_applyDueResumptions {state after : WorkflowTransition}
    {dueResumptions : List DueResumption}
    (h : dueResumptions.foldlM applyDueResumption state = Except.ok after) :
    SameScopes state after ∧ KeepsInvocations Resumes state after := by
  apply foldlM_relation
    (fun before after => SameScopes before after ∧ KeepsInvocations Resumes before after) _ _ _ h
  · intro state
    exact ⟨SameScopes.refl state, KeepsInvocations.of_subset Resumes.refl fun _ hmem => hmem⟩
  · intro first second third hfirst hsecond
    exact ⟨hfirst.left.trans hsecond.left,
      KeepsInvocations.trans Resumes (fun _ _ _ => Resumes.trans) hfirst.right hsecond.right⟩
  · intro _ _ _ _ hstep
    exact resumes_applyDueResumption hstep

theorem quiet_startRun (state : WorkflowTransition) (occurredAt : Timestamp) :
    Quiet state (startRun state occurredAt) := by
  unfold startRun
  split
  · rename_i hqueued
    rw [Bool.and_eq_true, Bool.and_eq_true, beq_iff_eq] at hqueued
    apply Quiet.of_eq
    · rfl
    · rfl
    · rfl
    · rfl
    · rw [hqueued.left.left]
      exact Relation.ReflTransGen.single
        (show RunStatus.running ∈ runTransitions .queued by decide)
  · exact Quiet.refl state

end Engine
end Pertexo
