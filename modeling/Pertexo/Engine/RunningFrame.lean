import Pertexo.Engine.Runs

/-!
# What the passes leave running

The passes of an advance never replace the scheduler's nodes, and they start no
attempt: an invocation that runs after a pass has run before it, in its scope.
-/

namespace Pertexo
namespace Engine

open Library
open Values

/-- The nodes are the same, and an invocation runs only where one has run before. -/
structure RunsFrom (before after : WorkflowTransition) : Prop where
  nodes : after.schedulerNodes = before.schedulerNodes
  running : forall invocation, invocation ∈ after.invocations -> invocation.status = .running ->
    exists origin, origin ∈ before.invocations ∧ origin.scope = invocation.scope ∧
      origin.status = .running

theorem RunsFrom.refl (state : WorkflowTransition) : RunsFrom state state where
  nodes := rfl
  running := fun invocation hmem hrunning => ⟨invocation, hmem, rfl, hrunning⟩

theorem RunsFrom.trans {first second third : WorkflowTransition} (h : RunsFrom first second)
    (h' : RunsFrom second third) : RunsFrom first third where
  nodes := h'.nodes.trans h.nodes
  running := by
    intro invocation hmem hrunning
    rcases h'.running invocation hmem hrunning with ⟨middle, hmiddle, hscope, hruns⟩
    rcases h.running middle hmiddle hruns with ⟨origin, horigin, hsame, hran⟩
    exact ⟨origin, horigin, hsame.trans hscope, hran⟩

theorem RunsFrom.foldlM {β : Type}
    {step : WorkflowTransition -> β -> EngineResult WorkflowTransition}
    {items : List β} {start finish : WorkflowTransition}
    (hstep : forall item, item ∈ items -> forall before after,
      step before item = Except.ok after -> RunsFrom before after)
    (h : items.foldlM step start = Except.ok finish) : RunsFrom start finish :=
  foldlM_relation RunsFrom RunsFrom.refl (fun _ _ _ => RunsFrom.trans) hstep h

theorem RunsFrom.of_invocations_eq {before after : WorkflowTransition}
    (hnodes : after.schedulerNodes = before.schedulerNodes)
    (hinvocations : after.invocations = before.invocations) : RunsFrom before after where
  nodes := hnodes
  running := by
    intro invocation hmem hrunning
    rw [hinvocations] at hmem
    exact ⟨invocation, hmem, rfl, hrunning⟩

theorem RunsFrom.of_quiet {before after : WorkflowTransition}
    (hnodes : after.schedulerNodes = before.schedulerNodes) (h : Quiet before after) :
    RunsFrom before after where
  nodes := hnodes
  running := by
    intro invocation hmem hrunning
    have hscope : invocation.scope ∈ before.scopes := by
      rw [← h.scopes]
      exact mem_scopesOf hmem
    rcases h.progress.of_scope (fun _ _ => Progresses.key) hmem hscope with
      ⟨origin, horigin, hsame, hprogress⟩
    exact ⟨origin, horigin, hsame, (hprogress.runs hrunning).left⟩

theorem RunsFrom.of_set {before after : WorkflowTransition} {updated : InvocationState}
    (hnodes : after.schedulerNodes = before.schedulerNodes)
    (hinvocations : after.invocations = before.invocations.set updated)
    (hstatus : updated.status ≠ .running) : RunsFrom before after where
  nodes := hnodes
  running := by
    intro invocation hmem hrunning
    rw [hinvocations] at hmem
    rcases Keyed.mem_set.mp hmem with rfl | ⟨hold, _⟩
    · exact absurd hrunning hstatus
    · exact ⟨invocation, hold, rfl, hrunning⟩

theorem RunsFrom.setInvocation (state : WorkflowTransition) {updated : InvocationState}
    (hstatus : updated.status ≠ .running) : RunsFrom state (state.setInvocation updated) :=
  RunsFrom.of_set rfl rfl hstatus

theorem RunsFrom.materialize (state : WorkflowTransition) {updated : InvocationState}
    (hstatus : updated.status ≠ .running) : RunsFrom state (state.materialize updated) :=
  RunsFrom.of_set rfl rfl hstatus

theorem RunsFrom.withDraft {before after : WorkflowTransition} (h : RunsFrom before after)
    (draft : EngineEventDraft) : RunsFrom before (after.addDraft draft) :=
  h.trans (RunsFrom.of_invocations_eq rfl rfl)

theorem RunsFrom.withLoop {before after : WorkflowTransition} (h : RunsFrom before after)
    (loop : LoopState) : RunsFrom before (after.setLoop loop) :=
  h.trans (RunsFrom.of_invocations_eq rfl rfl)

theorem RunsFrom.withJoin {before after : WorkflowTransition} (h : RunsFrom before after)
    (join : JoinState) : RunsFrom before (after.setJoin join) :=
  h.trans (RunsFrom.of_invocations_eq rfl rfl)

/-!
## Facts
-/

theorem runsFrom_failLoopControl {state after : WorkflowTransition} {key : String}
    {occurredAt : Timestamp} (h : failLoopControl state key occurredAt = Except.ok after) :
    RunsFrom state after := by
  unfold failLoopControl at h
  split at h
  · exact absurd h fail_ne_ok
  · split at h
    · exact absurd h fail_ne_ok
    · cases h
      apply RunsFrom.withDraft
      apply RunsFrom.setInvocation
      intro hrunning
      cases hrunning

theorem runsFrom_declareLoop {state after : WorkflowTransition}
    {observation : LoopStartedObservation} {declared : LoopState}
    (h : declareLoop state observation declared = Except.ok after) : RunsFrom state after := by
  unfold declareLoop at h
  dsimp only at h
  split at h
  · cases h
    refine RunsFrom.of_set rfl rfl ?_
    intro hrunning
    cases hrunning
  · split at h
    · exact absurd h fail_ne_ok
    · rcases exists_of_bind_eq_ok h with ⟨_, _, h⟩
      cases h
      refine RunsFrom.of_set rfl rfl ?_
      intro hrunning
      cases hrunning

theorem runsFrom_applyLoopStart {state after : WorkflowTransition}
    {observation : LoopStartedObservation} {occurredAt : Timestamp}
    (h : applyLoopStart state observation occurredAt = Except.ok after) :
    RunsFrom state after := by
  unfold applyLoopStart at h
  split at h
  · cases h
    exact RunsFrom.refl state
  · split at h
    · rcases exists_of_bind_eq_ok h with ⟨_, _, h⟩
      rcases exists_of_bind_eq_ok h with ⟨_, _, h⟩
      cases h
      exact RunsFrom.refl state
    · split at h
      · split at h
        · cases h
        · exact runsFrom_failLoopControl h
      · exact runsFrom_declareLoop h

theorem nodeEventName_running : nodeEventName .running = none := by
  rfl

theorem runsFrom_stopFailedLoopControl {state after : WorkflowTransition} {loop : LoopState}
    {observation : LoopIterationCompletedObservation} {occurredAt : Timestamp}
    (hstatus : observation.status ≠ .running)
    (h : stopFailedLoopControl state loop observation occurredAt = Except.ok after) :
    RunsFrom state after := by
  unfold stopFailedLoopControl at h
  split at h
  · split at h
    · exact absurd h fail_ne_ok
    · split at h
      · exact absurd h fail_ne_ok
      · rcases exists_of_bind_eq_ok h with ⟨_, _, h⟩
        cases h
        exact (RunsFrom.setInvocation state hstatus).withDraft _
  · cases h
    exact RunsFrom.refl state

theorem runsFrom_completeIteration {state after : WorkflowTransition} {loop : LoopState}
    {iteration : InvocationState} {observation : LoopIterationCompletedObservation}
    {occurredAt : Timestamp}
    (h : completeIteration state loop iteration observation occurredAt = Except.ok after) :
    RunsFrom state after := by
  unfold completeIteration at h
  rcases exists_of_bind_eq_ok h with ⟨_, _, h⟩
  dsimp only at h
  rcases exists_of_bind_eq_ok h with ⟨completed, _, h⟩
  rcases exists_of_bind_eq_ok h with ⟨stopped, hstopped, h⟩
  rcases exists_of_bind_eq_ok h with ⟨_, hevent, h⟩
  cases h
  have hstatus : observation.status ≠ .running := by
    intro hrunning
    rw [hrunning, nodeEventName_running] at hevent
    cases hevent
  apply RunsFrom.trans _ (runsFrom_stopFailedLoopControl hstatus hstopped)
  apply RunsFrom.withLoop
  exact RunsFrom.setInvocation state hstatus

theorem runsFrom_applyLoopCompletion {state after : WorkflowTransition}
    {observation : LoopIterationCompletedObservation} {occurredAt : Timestamp}
    (h : applyLoopCompletion state observation occurredAt = Except.ok after) :
    RunsFrom state after := by
  unfold applyLoopCompletion at h
  split at h
  · exact absurd h fail_ne_ok
  · split at h
    · exact absurd h fail_ne_ok
    · split at h
      · cases h
        exact RunsFrom.refl state
      · split at h
        · exact absurd h fail_ne_ok
        · split at h
          · split at h
            · cases h
              exact RunsFrom.refl state
            · rcases exists_of_bind_eq_ok h with ⟨_, _, h⟩
              cases h
              exact RunsFrom.refl state
          · exact runsFrom_completeIteration h

theorem runsFrom_applyJoinDeclaration {state after : WorkflowTransition}
    {observation : JoinDeclaredObservation}
    (h : applyJoinDeclaration state observation = Except.ok after) : RunsFrom state after := by
  unfold applyJoinDeclaration at h
  split at h
  · cases h
    exact RunsFrom.refl state
  · rcases exists_of_bind_eq_ok h with ⟨declared, _, h⟩
    split at h
    · rcases exists_of_bind_eq_ok h with ⟨_, _, h⟩
      cases h
      exact RunsFrom.refl state
    · dsimp only at h
      split at h
      · cases h
        exact (RunsFrom.refl state).withJoin declared
      · cases h
        refine RunsFrom.of_set rfl rfl ?_
        intro hrunning
        cases hrunning

theorem runsFrom_applyBranchDisposition {state after : WorkflowTransition}
    {observation : BranchDispositionObservation}
    (h : applyBranchDisposition state observation = Except.ok after) : RunsFrom state after := by
  unfold applyBranchDisposition at h
  split at h
  · exact absurd h fail_ne_ok
  · rcases exists_of_bind_eq_ok h with ⟨_, _, h⟩
    cases h
    exact (RunsFrom.refl state).withJoin _

theorem runsFrom_applyBranchSelection {state after : WorkflowTransition}
    {observation : BranchSelectedObservation}
    (h : applyBranchSelection state observation = Except.ok after) : RunsFrom state after := by
  unfold applyBranchSelection at h
  split at h
  · cases h
    exact RunsFrom.refl state
  · dsimp only at h
    rcases exists_of_bind_eq_ok h with ⟨_, _, h⟩
    split at h
    · rcases exists_of_bind_eq_ok h with ⟨_, _, h⟩
      cases h
      exact RunsFrom.refl state
    · cases h
      exact RunsFrom.of_invocations_eq rfl rfl

theorem runsFrom_applyDeclarationStart {state after : WorkflowTransition}
    {existing : InvocationState} {waitKind : WaitKind} {occurredAt : Timestamp}
    (h : applyDeclarationStart state existing waitKind occurredAt = Except.ok after) :
    RunsFrom state after := by
  unfold applyDeclarationStart at h
  split at h
  · cases h
    exact RunsFrom.refl state
  · split at h
    · cases h
      exact RunsFrom.refl state
    · rcases exists_of_bind_eq_ok h with ⟨_, _, h⟩
      cases h
      apply RunsFrom.withDraft
      apply RunsFrom.setInvocation
      intro hrunning
      cases hrunning

theorem runsFrom_applyWait {state after : WorkflowTransition} {existing : InvocationState}
    {observation : WaitObservation} {occurredAt : Timestamp}
    (h : applyWait state existing observation occurredAt = Except.ok after) :
    RunsFrom state after := by
  unfold applyWait at h
  rcases exists_of_bind_eq_ok h with ⟨_, _, h⟩
  dsimp only at h
  split at h
  · cases h
    apply RunsFrom.withDraft
    apply RunsFrom.setInvocation
    intro hrunning
    cases hrunning
  · cases h
    apply RunsFrom.setInvocation
    intro hrunning
    cases hrunning

theorem runsFrom_selectFailureHandler {state after : WorkflowTransition}
    {source : InvocationState} {failure : WorkflowNodeFailureValue} {occurredAt : Timestamp}
    (hstatus : source.status ≠ .running)
    (h : selectFailureHandler state source failure occurredAt = Except.ok after) :
    RunsFrom state after := by
  unfold selectFailureHandler at h
  split at h
  · cases h
    exact RunsFrom.refl state
  · split at h
    · cases h
      exact RunsFrom.refl state
    · rcases exists_of_bind_eq_ok h with ⟨_, _, h⟩
      rcases exists_of_bind_eq_ok h with ⟨_, _, h⟩
      rcases exists_of_bind_eq_ok h with ⟨_, _, h⟩
      rcases exists_of_bind_eq_ok h with ⟨_, _, h⟩
      rcases exists_of_bind_eq_ok h with ⟨_, _, h⟩
      cases h
      exact RunsFrom.of_set rfl rfl hstatus

theorem runsFrom_applyTerminalObservation {state after : WorkflowTransition}
    {existing : InvocationState} {observation : OutcomeObservation} {occurredAt : Timestamp}
    (h : applyTerminalObservation state existing observation occurredAt = Except.ok after) :
    RunsFrom state after := by
  unfold applyTerminalObservation at h
  split at h
  · split at h
    · cases h
      exact RunsFrom.refl state
    · rcases exists_of_bind_eq_ok h with ⟨_, _, h⟩
      cases h
      exact RunsFrom.refl state
  · split at h
    · exact absurd h fail_ne_ok
    · rcases exists_of_bind_eq_ok h with ⟨_, _, h⟩
      dsimp only at h
      split at h
      · exact absurd h fail_ne_ok
      · rename_i eventName hevent
        have hstatus : observation.status ≠ .running := by
          intro hrunning
          rw [hrunning, nodeEventName_running] at hevent
          cases hevent
        have hset : RunsFrom state
            (state.setInvocation
              { existing.withStatus observation.status with
                output := observation.output <|> existing.output }) :=
          RunsFrom.setInvocation state hstatus
        have hdrafted : forall drafted,
            (if observation.coordinatorDerived then
              (state.setInvocation
                { existing.withStatus observation.status with
                  output := observation.output <|> existing.output }).addDraft
                (transitionEvent eventName occurredAt
                  (some
                    { existing.withStatus observation.status with
                      output := observation.output <|> existing.output })
                  observation.reasonCode)
            else
              state.setInvocation
                { existing.withStatus observation.status with
                  output := observation.output <|> existing.output }) = drafted ->
            RunsFrom state drafted := by
          rintro drafted rfl
          split
          · exact hset.withDraft _
          · exact hset
        split at h
        · split at h
          · exact (hdrafted _ rfl).trans (runsFrom_selectFailureHandler hstatus h)
          · cases h
            exact hdrafted _ rfl
        · cases h
          exact hdrafted _ rfl

theorem runsFrom_applyObservation {occurredAt : Timestamp} {state after : WorkflowTransition}
    {observation : WorkflowObservation}
    (h : applyObservation occurredAt state observation = Except.ok after) :
    RunsFrom state after := by
  cases observation with
  | cursorOnly =>
      cases h
      exact RunsFrom.refl state
  | cancelRequested =>
      cases h
      exact RunsFrom.refl state
  | joinDeclared fact => exact runsFrom_applyJoinDeclaration h
  | branchDisposition fact => exact runsFrom_applyBranchDisposition h
  | branchSelected fact => exact runsFrom_applyBranchSelection h
  | loopStarted fact => exact runsFrom_applyLoopStart h
  | loopIterationCompleted fact => exact runsFrom_applyLoopCompletion h
  | callStarted invocationKey =>
      rcases exists_of_bind_eq_ok h with ⟨_, _, h⟩
      exact runsFrom_applyDeclarationStart h
  | taskStarted invocationKey =>
      rcases exists_of_bind_eq_ok h with ⟨_, _, h⟩
      exact runsFrom_applyDeclarationStart h
  | wait fact =>
      rcases exists_of_bind_eq_ok h with ⟨_, _, h⟩
      exact runsFrom_applyWait h
  | outcome fact =>
      rcases exists_of_bind_eq_ok h with ⟨_, _, h⟩
      exact runsFrom_applyTerminalObservation h

theorem runsFrom_resumeRun (state : WorkflowTransition) : RunsFrom state state.resumeRun := by
  unfold WorkflowTransition.resumeRun
  split
  · exact RunsFrom.of_invocations_eq rfl rfl
  · exact RunsFrom.refl state

theorem runsFrom_applyDueResumption {state after : WorkflowTransition} {due : DueResumption}
    (h : applyDueResumption state due = Except.ok after) : RunsFrom state after := by
  unfold applyDueResumption at h
  split at h
  · cases h
    exact RunsFrom.refl state
  · rcases exists_of_bind_eq_ok h with ⟨existing, _, h⟩
    split at h
    · cases h
      exact RunsFrom.refl state
    · rcases exists_of_bind_eq_ok h with ⟨_, _, h⟩
      rcases exists_of_bind_eq_ok h with ⟨resumed, hresumed, h⟩
      cases h
      apply RunsFrom.trans _ (runsFrom_resumeRun _)
      apply RunsFrom.withDraft
      apply RunsFrom.setInvocation
      intro hrunning
      rw [resumedInvocation_eq hresumed] at hrunning
      cases hrunning

theorem runsFrom_startRun (state : WorkflowTransition) (occurredAt : Timestamp) :
    RunsFrom state (startRun state occurredAt) := by
  unfold startRun
  split
  · exact RunsFrom.of_invocations_eq rfl rfl
  · exact RunsFrom.refl state

theorem runsFrom_applyWorkflowObservations {state after : WorkflowTransition}
    {dueResumptions : List DueResumption} {observations : List WorkflowObservation}
    {occurredAt : Timestamp}
    (h : applyWorkflowObservations state dueResumptions observations occurredAt =
      Except.ok after) :
    RunsFrom state after := by
  unfold applyWorkflowObservations at h
  rcases exists_of_bind_eq_ok h with ⟨resumed, hresumed, h⟩
  have hcontrol : RunsFrom state (applyControlFacts state observations) :=
    RunsFrom.of_invocations_eq rfl rfl
  have hdue := RunsFrom.foldlM (fun _ _ _ _ => runsFrom_applyDueResumption) hresumed
  have hfacts := RunsFrom.foldlM (fun _ _ _ _ => runsFrom_applyObservation) h
  exact ((hcontrol.trans hdue).trans (runsFrom_startRun resumed occurredAt)).trans hfacts

/-!
## Handlers of failures
-/

theorem schedulerNodes_foldlM {β : Type}
    {step : WorkflowTransition -> β -> EngineResult WorkflowTransition} {items : List β}
    {start finish : WorkflowTransition}
    (hstep : forall item, item ∈ items -> forall before after,
      step before item = Except.ok after -> after.schedulerNodes = before.schedulerNodes)
    (h : items.foldlM step start = Except.ok finish) :
    finish.schedulerNodes = start.schedulerNodes :=
  foldlM_relation
    (fun before after : WorkflowTransition => after.schedulerNodes = before.schedulerNodes)
    (fun _ => rfl) (fun _ _ _ hfirst hsecond => Eq.trans hsecond hfirst) hstep h

theorem schedulerNodes_settleFailureHandler {occurredAt : Timestamp}
    {state after : WorkflowTransition} {source : InvocationState}
    (h : settleFailureHandler occurredAt state source = Except.ok after) :
    after.schedulerNodes = state.schedulerNodes := by
  unfold settleFailureHandler at h
  split at h
  · cases h
    rfl
  · split at h
    · cases h
      rfl
    · split at h
      · cases h
        rfl
      · dsimp only at h
        split at h
        · rcases exists_of_bind_eq_ok h with ⟨_, _, h⟩
          rcases exists_of_bind_eq_ok h with ⟨_, _, h⟩
          cases h
          rfl
        · rcases exists_of_bind_eq_ok h with ⟨_, _, h⟩
          rcases exists_of_bind_eq_ok h with ⟨_, _, h⟩
          cases h
          rfl

theorem runsFrom_settleFailureHandlers {state after : WorkflowTransition}
    {occurredAt : Timestamp} (h : settleFailureHandlers state occurredAt = Except.ok after) :
    RunsFrom state after := by
  apply RunsFrom.of_quiet _ (quiet_settleFailureHandlers h)
  exact schedulerNodes_foldlM (fun _ _ _ _ => schedulerNodes_settleFailureHandler) h

/-!
## Ready steps, joins and iterations
-/

theorem disposition_of_readyNodes {input : DeriveReadyNodesInput}
    {decisions : List ReadyNodeDecision} (h : deriveReadyNodes input = Except.ok decisions) :
    forall decision, decision ∈ decisions -> decision.disposition ≠ .running := by
  unfold deriveReadyNodes at h
  rcases exists_of_bind_eq_ok h with ⟨indexes, _, h⟩
  rcases exists_of_bind_eq_ok h with ⟨_, _, h⟩
  intro decision hdecision
  rcases exists_of_mem_mapM h hdecision with ⟨node, _, hready⟩
  unfold readyNodeDecision at hready
  dsimp only at hready
  rcases exists_of_bind_eq_ok hready with ⟨key, _, hready⟩
  cases hready
  dsimp only
  split
  · intro hrunning
    cases hrunning
  · intro hrunning
    cases hrunning

theorem runsFrom_materializeWithEvent (state : WorkflowTransition) {invocation : InvocationState}
    (hstatus : invocation.status ≠ .running) (occurredAt : Timestamp) :
    RunsFrom state (materializeWithEvent state invocation occurredAt) :=
  (RunsFrom.materialize state hstatus).withDraft _

theorem runsFrom_foldl {β : Type} {step : WorkflowTransition -> β -> WorkflowTransition}
    {items : List β}
    (hstep : forall item, item ∈ items -> forall state, RunsFrom state (step state item))
    (state : WorkflowTransition) : RunsFrom state (items.foldl step state) := by
  induction items generalizing state with
  | nil => exact RunsFrom.refl state
  | cons item rest ih =>
      rw [List.foldl_cons]
      apply (hstep item (List.mem_cons_self ..) state).trans
      apply ih
      intro other hother
      exact hstep other (List.mem_cons_of_mem _ hother)

theorem runsFrom_deriveRootReadiness {state after : WorkflowTransition}
    {coordinatorNodeIds : List String} {occurredAt : Timestamp}
    (h : deriveRootReadiness state coordinatorNodeIds occurredAt = Except.ok after) :
    RunsFrom state after := by
  unfold deriveRootReadiness at h
  split at h
  · cases h
    exact RunsFrom.refl state
  · rcases exists_of_bind_eq_ok h with ⟨decisions, hdecisions, h⟩
    cases h
    apply runsFrom_foldl
    intro decision hdecision before
    unfold materializeRootDecision
    split
    · exact RunsFrom.refl before
    · exact runsFrom_materializeWithEvent before
        (disposition_of_readyNodes hdecisions decision hdecision) occurredAt

theorem runsFrom_deriveIterationReadiness {body : StructuredBody} {loop : LoopState}
    {occurredAt : Timestamp} {state after : WorkflowTransition} {ordinal : Nat}
    (h : deriveIterationReadiness body loop occurredAt state ordinal = Except.ok after) :
    RunsFrom state after := by
  unfold deriveIterationReadiness at h
  rcases exists_of_bind_eq_ok h with ⟨decisions, hdecisions, h⟩
  cases h
  apply runsFrom_foldl
  intro decision hdecision before
  exact runsFrom_materializeWithEvent before
    (disposition_of_readyNodes hdecisions decision hdecision) occurredAt

theorem runsFrom_deriveLoopBodyReadiness {state after : WorkflowTransition}
    {occurredAt : Timestamp} (h : deriveLoopBodyReadiness state occurredAt = Except.ok after) :
    RunsFrom state after := by
  unfold deriveLoopBodyReadiness at h
  split at h
  · cases h
    exact RunsFrom.refl state
  · apply RunsFrom.foldlM _ h
    intro loop _ before next hnext
    unfold deriveBodyReadiness at hnext
    split at hnext
    · exact absurd hnext fail_ne_ok
    · exact RunsFrom.foldlM (fun _ _ _ _ => runsFrom_deriveIterationReadiness) hnext

theorem runsFrom_settleSatisfiedJoin (state : WorkflowTransition) (join : JoinState)
    (invocation : InvocationState) (selectedBranchIds : List String)
    (ledger : List BranchLedgerEntry) (occurredAt : Timestamp) :
    RunsFrom state
      (settleSatisfiedJoin state join invocation selectedBranchIds ledger occurredAt) := by
  unfold settleSatisfiedJoin
  dsimp only
  split
  · refine RunsFrom.of_set rfl rfl ?_
    intro hrunning
    cases hrunning
  · exact (RunsFrom.refl state).withJoin _

theorem runsFrom_settleUnsatisfiedJoin (state : WorkflowTransition) (join : JoinState)
    (invocation : InvocationState) (reasonCode : UnsatisfiedReason)
    (ledger : List BranchLedgerEntry) (occurredAt : Timestamp) :
    RunsFrom state
      (settleUnsatisfiedJoin state join invocation reasonCode ledger occurredAt) := by
  unfold settleUnsatisfiedJoin
  dsimp only
  split
  · exact (RunsFrom.refl state).withJoin _
  · refine RunsFrom.of_set rfl rfl ?_
    intro hrunning
    cases hrunning

theorem runsFrom_settlePendingJoin {occurredAt : Timestamp} {state after : WorkflowTransition}
    {join : JoinState} (h : settlePendingJoin occurredAt state join = Except.ok after) :
    RunsFrom state after := by
  unfold settlePendingJoin at h
  split at h
  · cases h
    exact RunsFrom.refl state
  · rcases exists_of_bind_eq_ok h with ⟨settlement, _, h⟩
    split at h
    · cases h
      exact RunsFrom.refl state
    · split at h
      · exact absurd h fail_ne_ok
      · cases h
        exact runsFrom_settleSatisfiedJoin ..
    · split at h
      · exact absurd h fail_ne_ok
      · cases h
        exact runsFrom_settleUnsatisfiedJoin ..

theorem runsFrom_deriveReadinessAndJoins {state after : WorkflowTransition}
    {coordinatorNodeIds : List String} {occurredAt : Timestamp}
    (h : deriveReadinessAndJoins state coordinatorNodeIds occurredAt = Except.ok after) :
    RunsFrom state after := by
  unfold deriveReadinessAndJoins at h
  rcases exists_of_bind_eq_ok h with ⟨rooted, hrooted, h⟩
  rcases exists_of_bind_eq_ok h with ⟨bodies, hbodies, h⟩
  apply (runsFrom_deriveRootReadiness hrooted).trans
  apply (runsFrom_deriveLoopBodyReadiness hbodies).trans
  exact RunsFrom.foldlM (fun _ _ _ _ => runsFrom_settlePendingJoin) h

theorem runsFrom_admitBodyRoot {loop : LoopState} {ordinal : Nat} {occurredAt : Timestamp}
    {state after : WorkflowTransition} {nodeId : String}
    (h : admitBodyRoot loop ordinal occurredAt state nodeId = Except.ok after) :
    RunsFrom state after := by
  unfold admitBodyRoot at h
  rcases exists_of_bind_eq_ok h with ⟨key, _, h⟩
  rcases exists_of_bind_eq_ok h with ⟨_, _, h⟩
  cases h
  apply runsFrom_materializeWithEvent
  unfold bodyRootInvocation
  dsimp only
  split
  · intro hrunning
    cases hrunning
  · intro hrunning
    cases hrunning

theorem runsFrom_completeExhaustedLoop {state after : WorkflowTransition} {loop : LoopState}
    {occurredAt : Timestamp} (h : completeExhaustedLoop state loop occurredAt = Except.ok after) :
    RunsFrom state after := by
  unfold completeExhaustedLoop at h
  split at h
  · cases h
    exact RunsFrom.refl state
  · split at h
    · exact absurd h fail_ne_ok
    · split at h
      · cases h
        refine RunsFrom.of_set rfl rfl ?_
        intro hrunning
        cases hrunning
      · split at h
        · cases h
          refine RunsFrom.of_set rfl rfl ?_
          intro hrunning
          cases hrunning
        · cases h
          exact RunsFrom.refl state

theorem runsFrom_advanceLoop {occurredAt : Timestamp} {state after : WorkflowTransition}
    {loop : LoopState} (h : advanceLoop occurredAt state loop = Except.ok after) :
    RunsFrom state after := by
  unfold advanceLoop at h
  rcases exists_of_bind_eq_ok h with ⟨_, _, h⟩
  split at h
  · cases h
    exact RunsFrom.refl state
  · rcases exists_of_bind_eq_ok h with ⟨admission, _, h⟩
    rcases exists_of_bind_eq_ok h with ⟨admitted, hadmitted, h⟩
    apply RunsFrom.trans _ (runsFrom_completeExhaustedLoop h)
    apply ((RunsFrom.refl state).withLoop admission.loop).trans
    apply RunsFrom.foldlM _ hadmitted
    intro ordinal _ before next hnext
    exact RunsFrom.foldlM (fun _ _ _ _ => runsFrom_admitBodyRoot) hnext

theorem runsFrom_advanceLoopIterations {state after : WorkflowTransition}
    {occurredAt : Timestamp} (h : advanceLoopIterations state occurredAt = Except.ok after) :
    RunsFrom state after := by
  unfold advanceLoopIterations at h
  split at h
  · cases h
    exact RunsFrom.refl state
  · exact RunsFrom.foldlM (fun _ _ _ _ => runsFrom_advanceLoop) h

/-!
## Stops
-/

theorem schedulerNodes_stopUnprotected {protectedControls : List String}
    {occurredAt : Timestamp} {state after : WorkflowTransition} {invocation : InvocationState}
    (h : stopUnprotected protectedControls occurredAt state invocation = Except.ok after) :
    after.schedulerNodes = state.schedulerNodes := by
  unfold stopUnprotected at h
  split at h
  · unfold stopInvocation at h
    split at h
    · cases h
      rfl
    · rcases exists_of_bind_eq_ok h with ⟨_, _, h⟩
      cases h
      rfl
  · cases h
    rfl

theorem schedulerNodes_stopLoopIteration {occurredAt : Timestamp}
    {progress after : WorkflowTransition × LoopState} {ordinal : Nat}
    (h : stopLoopIteration occurredAt progress ordinal = Except.ok after) :
    after.fst.schedulerNodes = progress.fst.schedulerNodes := by
  unfold stopLoopIteration at h
  dsimp only at h
  rcases exists_of_bind_eq_ok h with ⟨_, _, h⟩
  rcases exists_of_bind_eq_ok h with ⟨stopped, hstopped, h⟩
  have hnodes := schedulerNodes_foldlM (fun _ _ _ _ => schedulerNodes_stopUnprotected) hstopped
  split at h
  · rcases exists_of_bind_eq_ok h with ⟨completed, _, h⟩
    cases h
    exact hnodes
  · cases h
    exact hnodes

theorem schedulerNodes_stopSettledLoop (state : WorkflowTransition) (loop : LoopState)
    (stopStatus : NodeStatus) (occurredAt : Timestamp) :
    (stopSettledLoop state loop stopStatus occurredAt).schedulerNodes = state.schedulerNodes := by
  unfold stopSettledLoop
  dsimp only
  split
  · rfl
  · split
    · rfl
    · rfl

theorem schedulerNodes_stopLoop {stopStatus : NodeStatus} {occurredAt : Timestamp}
    {state after : WorkflowTransition} {loop : LoopState}
    (h : stopLoop stopStatus occurredAt state loop = Except.ok after) :
    after.schedulerNodes = state.schedulerNodes := by
  unfold stopLoop at h
  split at h
  · cases h
    rfl
  · rcases exists_of_bind_eq_ok h with ⟨⟨stopped, settled⟩, hstopped, h⟩
    have hnodes : stopped.schedulerNodes = state.schedulerNodes :=
      foldlM_relation
        (fun before after : WorkflowTransition × LoopState =>
          after.fst.schedulerNodes = before.fst.schedulerNodes)
        (fun _ => rfl) (fun _ _ _ hfirst hsecond => hsecond.trans hfirst)
        (fun _ _ _ _ => schedulerNodes_stopLoopIteration) hstopped
    dsimp only at h
    split at h
    · cases h
      exact hnodes
    · cases h
      rw [schedulerNodes_stopSettledLoop]
      exact hnodes

theorem schedulerNodes_applyWorkflowStops {state after : WorkflowTransition}
    {occurredAt : Timestamp} (h : applyWorkflowStops state occurredAt = Except.ok after) :
    after.schedulerNodes = state.schedulerNodes := by
  unfold applyWorkflowStops at h
  rcases exists_of_bind_eq_ok h with ⟨stopped, hstopped, h⟩
  rw [schedulerNodes_foldlM (fun _ _ _ _ => schedulerNodes_stopUnprotected) h]
  unfold stopLoops at hstopped
  split at hstopped
  · cases hstopped
    rfl
  · exact schedulerNodes_foldlM (fun _ _ _ _ => schedulerNodes_stopLoop) hstopped

/-!
## One advance
-/

variable {executable : CompiledWorkflowExecutable} {ledger : Ledger}

theorem AdvancePasses.runsFrom {host : EngineHost} {input : AdvanceWorkflowInput}
    {plan : WorkflowTransitionPlan} (passes : AdvancePasses host input plan)
    (hcheckpoint : ScheduledCheckpoint input.executable ledger input.checkpoint) :
    RunsFrom passes.initial passes.stopped := by
  have hobserved := (passes.observed_spec hcheckpoint).left
  have hhandles := quiet_settleFailureHandlers passes.handles
  have hhandled := hobserved.of_sameScopes hhandles.toSameScopes
  have hderived := (scheduled_deriveReadinessAndJoins hhandled passes.derives).left
  have hadvanced := (scheduled_advanceLoopIterations hderived passes.advances).left
  have hstops := quiet_applyWorkflowStops
    (fun loop hloop => (hadvanced.records.fits loop hloop).terminalStatus) passes.stops
  apply (runsFrom_applyWorkflowObservations passes.observes).trans
  apply (runsFrom_settleFailureHandlers passes.handles).trans
  apply (runsFrom_deriveReadinessAndJoins passes.derives).trans
  apply (runsFrom_advanceLoopIterations passes.advances).trans
  exact RunsFrom.of_quiet (schedulerNodes_applyWorkflowStops passes.stops) hstops

theorem AdvancePasses.schedulerNodes_stopped {host : EngineHost} {input : AdvanceWorkflowInput}
    {plan : WorkflowTransitionPlan} (passes : AdvancePasses host input plan)
    (hcheckpoint : ScheduledCheckpoint input.executable ledger input.checkpoint) :
    passes.stopped.schedulerNodes = indexTransitionNodes (schedulerState input.executable) :=
  (passes.runsFrom hcheckpoint).nodes

end Engine
end Pertexo
