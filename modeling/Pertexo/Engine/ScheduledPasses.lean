import Pertexo.Engine.Materialization

/-!
# Scheduled passes of an advance

## Declarations
-/

namespace Pertexo
namespace Engine

open Library
open Values

variable {executable : CompiledWorkflowExecutable} {ledger : Ledger}

structure JoinFits (executable : CompiledWorkflowExecutable) (workflowVersionId : String)
    (scopes : Set InvocationScope) (observation : JoinDeclaredObservation) : Prop where
  key : observation.joinInvocationKey =
    rawInvocationKey workflowVersionId observation.joinId
      (encodedBranchPath observation.branchPath) observation.iterationPath
  ancestors : ancestorsOf executable.graph observation.joinId =
    some (observation.iterationPath.map IterationScopePart.loopNodeId)
  merge : IsMergeStep executable observation.joinId
  beside : exists scope, scope ∈ scopes ∧ scope.path = observation.iterationPath ∧
    scope.branch <+: observation.branchPath

structure LoopStartFits (executable : CompiledWorkflowExecutable)
    (scopes : Set InvocationScope) (observation : LoopStartedObservation) : Prop where
  control : exists scope, scope ∈ scopes ∧ scope.key = observation.controlInvocationKey ∧
    scope.node = observation.loopId ∧ scope.branch = observation.branchPath ∧
    scope.path = observation.iterationPath
  forEach : IsForEachStep executable observation.loopId
  roots : exists node structured, (nodesById executable).get? observation.loopId = some node ∧
    node.structured = some structured ∧
    observation.bodyRootNodeIds = bodyRootNodeIds structured.body
  iterations : exists node structured, (nodesById executable).get? observation.loopId = some node ∧
    node.structured = some structured ∧ observation.maxIterations = structured.maxIterations

theorem scheduled_applyJoinDeclaration {state after : WorkflowTransition}
    {observation : JoinDeclaredObservation} (hstate : ScheduledState executable ledger state)
    (hfits : JoinFits executable state.current.workflowVersionId state.scopes observation)
    (h : applyJoinDeclaration state observation = Except.ok after) :
    ScheduledState executable ledger after ∧ Extends state after := by
  unfold applyJoinDeclaration at h
  split at h
  · cases h
    exact ⟨hstate, Extends.refl state⟩
  · rcases exists_of_bind_eq_ok h with ⟨declared, _, h⟩
    dsimp only at h
    have hjoined := Quiet.setJoin state declared
    split at h
    · rcases exists_of_bind_eq_ok h with ⟨_, _, h⟩
      cases h
      exact ⟨hstate, Extends.refl state⟩
    · split at h
      · cases h
        exact ⟨hstate.of_sameScopes hjoined.toSameScopes, hjoined.extends⟩
      · rename_i hmissing
        cases h
        have hkey : forall other, other ∈ (state.setJoin declared).invocations ->
            other.invocationKey ≠ observation.joinInvocationKey := by
          intro other hother hsame
          exact hmissing (Keyed.has_iff.mpr ⟨other, hother, hsame⟩)
        rcases hfits.beside with ⟨scope, hscope, hpath, hbranch⟩
        constructor
        · apply (hstate.of_sameScopes hjoined.toSameScopes).materialize
          · exact ⟨hfits.key, hfits.ancestors⟩
          · exact Or.inr (Or.inl ⟨scope, hscope, hpath, hbranch⟩)
          · exact hkey
          · intro hplain
            exact absurd hfits.merge hplain
        · exact hjoined.extends.trans (extends_materialize rfl hkey)

theorem createLoopState_spec {observation : LoopStartedObservation} {budget : Nat}
    {declared : LoopState} (h : createLoopState observation budget = Except.ok declared) :
    declared.window =
        { key := observation.controlInvocationKey
          node := observation.loopId
          branch := observation.branchPath
          path := observation.iterationPath
          next := 0
          active := [] } ∧
      declared.terminalOrdinals = [] ∧ declared.terminalStatus = none ∧
      declared.bodyRootNodeIds = observation.bodyRootNodeIds ∧
      declared.collectionSize ≤ declared.maxIterations ∧
      declared.maxIterations = observation.maxIterations := by
  unfold createLoopState at h
  split at h
  · exact absurd h fail_ne_ok
  · split at h
    · exact absurd h fail_ne_ok
    · rename_i hlimits
      cases h
      simp only [Bool.or_eq_true, decide_eq_true_eq, not_or, not_lt] at hlimits
      exact ⟨rfl, rfl, rfl, rfl, hlimits.left.right, rfl⟩

theorem windows_setLoop_of_fresh {state : WorkflowTransition} {loop : LoopState}
    (hfresh : state.loops.get? loop.controlInvocationKey = none) :
    (state.setLoop loop).windows = insert loop.window state.windows := by
  ext window
  constructor
  · rintro ⟨other, hother, rfl⟩
    rcases Keyed.mem_set.mp hother with rfl | ⟨hold, _⟩
    · exact Set.mem_insert ..
    · exact Set.mem_insert_of_mem _ ⟨other, hold, rfl⟩
  · intro hwindow
    rcases Set.mem_insert_iff.mp hwindow with rfl | ⟨other, hother, rfl⟩
    · exact ⟨loop, Keyed.mem_set.mpr (Or.inl rfl), rfl⟩
    · refine ⟨other, Keyed.mem_set.mpr (Or.inr ⟨hother, ?_⟩), rfl⟩
      exact Keyed.get?_eq_none_iff.mp hfresh other hother

theorem ScheduledState.declare {state : WorkflowTransition}
    {observation : LoopStartedObservation} {budget : Nat} {declared : LoopState}
    (hstate : ScheduledState executable ledger state)
    (hfits : LoopStartFits executable state.scopes observation)
    (hfresh : state.loops.get? observation.controlInvocationKey = none)
    (hdeclared : createLoopState observation budget = Except.ok declared) :
    ScheduledState executable ledger (state.setLoop declared) := by
  rcases createLoopState_spec hdeclared with
    ⟨hwindow, hterminal, hstatus, hroots, hcollection, hiterations⟩
  have hkey : declared.controlInvocationKey = observation.controlInvocationKey :=
    congrArg LoopWindow.key hwindow
  have hnode : declared.loopId = observation.loopId := congrArg LoopWindow.node hwindow
  have hactive : declared.activeOrdinals = [] := congrArg LoopWindow.active hwindow
  have hnext : declared.nextOrdinal = 0 := congrArg LoopWindow.next hwindow
  have hwindows := windows_setLoop_of_fresh (hkey ▸ hfresh)
  have howner : exists scope, scope ∈ scopesOf state.invocations.items ∧
      scope.key = declared.window.key ∧ scope.node = declared.window.node ∧
      scope.branch = declared.window.branch ∧ scope.path = declared.window.path := by
    rw [hwindow]
    exact hfits.control
  have hnew : forall window, window ∈ windowsOf state.loops.items ->
      window.key ≠ declared.window.key := by
    rintro _ ⟨other, hother, rfl⟩
    rw [hwindow]
    exact Keyed.get?_eq_none_iff.mp hfresh other hother
  refine ⟨⟨?_, hstate.records.addressed, ?_, ?_⟩, hstate.graph⟩
  · rw [WorkflowTransition.windows] at hwindows
    rw [hwindows]
    apply hstate.records.nested.declare _ howner hnew hactive
    rw [hwindow]
    exact hfits.forEach.not_merge
  · rw [WorkflowTransition.windows] at hwindows
    rw [hwindows]
    apply hstate.records.recorded.declare hstate.records.nested howner hnew
    rw [hwindow]
  · intro loop hloop
    rcases Keyed.mem_set.mp hloop with rfl | ⟨hold, _⟩
    · refine ⟨?_, ?_, ?_, ?_, ?_, hcollection, ?_⟩
      · intro ordinal hmem
        rw [hterminal] at hmem
        cases hmem
      · intro ordinal hmem
        rw [hactive] at hmem
        cases hmem
      · intro status hsome
        rw [hstatus] at hsome
        cases hsome
      · rcases hfits.roots with ⟨node, structured, hget, hstructured, hbodyRoots⟩
        rw [hnode, hroots, hbodyRoots]
        exact ⟨node, structured, hget, hstructured, List.Perm.refl _⟩
      · rw [hnext]
        exact Nat.zero_le _
      · rw [hnode, hiterations]
        exact hfits.iterations
    · exact hstate.records.fits loop hold

theorem scheduled_declareLoop {state after : WorkflowTransition}
    {observation : LoopStartedObservation} {budget : Nat} {declared : LoopState}
    (hstate : ScheduledState executable ledger state)
    (hfits : LoopStartFits executable state.scopes observation)
    (hfresh : state.loops.get? observation.controlInvocationKey = none)
    (hdeclared : createLoopState observation budget = Except.ok declared)
    (h : declareLoop state observation declared = Except.ok after) :
    ScheduledState executable ledger after ∧ Extends state after := by
  have hbudget : Quiet (state.setLoop declared)
      { state.setLoop declared with
        remainingIterationBudget :=
          state.remainingIterationBudget - declared.collectionSize } :=
    Quiet.of_eq rfl rfl rfl rfl Relation.ReflTransGen.refl
  have hreserved := (hstate.declare hfits hfresh hdeclared).of_sameScopes hbudget.toSameScopes
  have hextends : Extends state
      { state.setLoop declared with
        remainingIterationBudget :=
          state.remainingIterationBudget - declared.collectionSize } :=
    Extends.of_eq rfl rfl rfl
  unfold declareLoop at h
  dsimp only at h
  split at h
  · rename_i hmissing
    -- the control invocation is that of the checkpoint, so it is there
    rcases hfits.control with ⟨_, ⟨control, hcontrol, rfl⟩, hkey, _⟩
    exact absurd hkey (Keyed.get?_eq_none_iff.mp hmissing control hcontrol)
  · rename_i control hget
    split at h
    · exact absurd h fail_ne_ok
    · rcases exists_of_bind_eq_ok h with ⟨_, hassert, h⟩
      cases h
      have hquiet : Quiet
          { state.setLoop declared with
            remainingIterationBudget :=
              state.remainingIterationBudget - declared.collectionSize }
          (WorkflowTransition.setInvocation
            { state.setLoop declared with
              remainingIterationBudget :=
                state.remainingIterationBudget - declared.collectionSize }
            { control with status := .waiting, output := some observation.collection }) := by
        apply Quiet.rest
        · exact Keyed.mem_of_get? hget
        · rfl
        · rfl
        · exact nodeSettles_of_assert hassert rfl
        · rfl
      exact ⟨hreserved.of_sameScopes hquiet.toSameScopes, hextends.trans hquiet.extends⟩

theorem scheduled_applyLoopStart {state after : WorkflowTransition}
    {observation : LoopStartedObservation} {occurredAt : Timestamp}
    (hstate : ScheduledState executable ledger state)
    (hfits : LoopStartFits executable state.scopes observation)
    (h : applyLoopStart state observation occurredAt = Except.ok after) :
    ScheduledState executable ledger after ∧ Extends state after := by
  unfold applyLoopStart at h
  split at h
  · cases h
    exact ⟨hstate, Extends.refl state⟩
  · split at h
    · rcases exists_of_bind_eq_ok h with ⟨_, _, h⟩
      rcases exists_of_bind_eq_ok h with ⟨_, _, h⟩
      cases h
      exact ⟨hstate, Extends.refl state⟩
    · rename_i hfresh
      split at h
      · split at h
        · cases h
        · have hquiet := quiet_failLoopControl h
          exact ⟨hstate.of_sameScopes hquiet.toSameScopes, hquiet.extends⟩
      · rename_i declared hdeclared
        exact scheduled_declareLoop hstate hfits hfresh hdeclared h

/-!
## Batches
-/

/-- What the coordinator promises about an observation of a checkpoint's records. -/
def ObservationFits (executable : CompiledWorkflowExecutable) (workflowVersionId : String)
    (scopes : Set InvocationScope) : WorkflowObservation -> Prop
  | .outcome fact => isTerminalNodeStatus fact.status = true
  | .joinDeclared fact => JoinFits executable workflowVersionId scopes fact
  | .loopStarted fact => LoopStartFits executable scopes fact
  | .loopIterationCompleted fact => isTerminalNodeStatus fact.status = true
  | _ => True

theorem JoinFits.mono {workflowVersionId : String} {scopes wider : Set InvocationScope}
    {observation : JoinDeclaredObservation} (hsubset : scopes ⊆ wider)
    (h : JoinFits executable workflowVersionId scopes observation) :
    JoinFits executable workflowVersionId wider observation where
  key := h.key
  ancestors := h.ancestors
  merge := h.merge
  beside := by
    rcases h.beside with ⟨scope, hscope, hrest⟩
    exact ⟨scope, hsubset hscope, hrest⟩

theorem LoopStartFits.mono {scopes wider : Set InvocationScope}
    {observation : LoopStartedObservation} (hsubset : scopes ⊆ wider)
    (h : LoopStartFits executable scopes observation) :
    LoopStartFits executable wider observation where
  control := by
    rcases h.control with ⟨scope, hscope, hrest⟩
    exact ⟨scope, hsubset hscope, hrest⟩
  forEach := h.forEach
  roots := h.roots
  iterations := h.iterations

theorem quiet_step {state after : WorkflowTransition}
    (hstate : ScheduledState executable ledger state) (h : Quiet state after) :
    ScheduledState executable ledger after ∧ Extends state after :=
  ⟨hstate.of_sameScopes h.toSameScopes, h.extends⟩

theorem scheduled_applyObservation {state after : WorkflowTransition}
    {observation : WorkflowObservation} {occurredAt : Timestamp}
    (hstate : ScheduledState executable ledger state)
    (hfits : ObservationFits executable state.current.workflowVersionId state.scopes observation)
    (h : applyObservation occurredAt state observation = Except.ok after) :
    ScheduledState executable ledger after ∧ Extends state after := by
  cases observation with
  | cursorOnly =>
      cases h
      exact ⟨hstate, Extends.refl state⟩
  | cancelRequested =>
      cases h
      exact ⟨hstate, Extends.refl state⟩
  | outcome fact =>
      rcases exists_of_bind_eq_ok h with ⟨existing, hexisting, h⟩
      exact quiet_step hstate
        (quiet_applyTerminalObservation (mem_of_requireInvocation hexisting).left hfits h)
  | wait fact =>
      rcases exists_of_bind_eq_ok h with ⟨existing, hexisting, h⟩
      exact quiet_step hstate (quiet_applyWait (mem_of_requireInvocation hexisting).left h)
  | callStarted invocationKey =>
      rcases exists_of_bind_eq_ok h with ⟨existing, hexisting, h⟩
      exact quiet_step hstate
        (quiet_applyDeclarationStart (mem_of_requireInvocation hexisting).left h)
  | taskStarted invocationKey =>
      rcases exists_of_bind_eq_ok h with ⟨existing, hexisting, h⟩
      exact quiet_step hstate
        (quiet_applyDeclarationStart (mem_of_requireInvocation hexisting).left h)
  | branchSelected fact => exact quiet_step hstate (quiet_applyBranchSelection h)
  | joinDeclared fact => exact scheduled_applyJoinDeclaration hstate hfits h
  | branchDisposition fact => exact quiet_step hstate (quiet_applyBranchDisposition h)
  | loopStarted fact => exact scheduled_applyLoopStart hstate hfits h
  | loopIterationCompleted fact =>
      exact quiet_step hstate (quiet_applyLoopCompletion hfits h)

theorem ObservationFits.mono {workflowVersionId : String} {scopes wider : Set InvocationScope}
    {observation : WorkflowObservation} (hsubset : scopes ⊆ wider)
    (h : ObservationFits executable workflowVersionId scopes observation) :
    ObservationFits executable workflowVersionId wider observation := by
  cases observation with
  | joinDeclared fact => exact JoinFits.mono hsubset h
  | loopStarted fact => exact LoopStartFits.mono hsubset h
  | _ => exact h

theorem scheduled_applyObservations {state after : WorkflowTransition}
    {observations : List WorkflowObservation} {occurredAt : Timestamp}
    (hstate : ScheduledState executable ledger state)
    (hfits : forall observation, observation ∈ observations ->
      ObservationFits executable state.current.workflowVersionId state.scopes observation)
    (h : observations.foldlM (applyObservation occurredAt) state = Except.ok after) :
    ScheduledState executable ledger after ∧ Extends state after := by
  apply foldlM_invariant
    (fun current => ScheduledState executable ledger current ∧ Extends state current)
    ⟨hstate, Extends.refl state⟩ _ h
  rintro observation hmem current next ⟨hcurrent, hextends⟩ hnext
  have hobservation := (hfits observation hmem).mono hextends.scopes
  rw [← hextends.current] at hobservation
  rcases scheduled_applyObservation hcurrent hobservation hnext with ⟨hscheduled, hextends'⟩
  exact ⟨hscheduled, hextends.trans hextends'⟩

theorem resumptions_spec {state resumed : WorkflowTransition}
    {dueResumptions : List DueResumption} {observations : List WorkflowObservation}
    {occurredAt : Timestamp}
    (h : dueResumptions.foldlM applyDueResumption (applyControlFacts state observations) =
      Except.ok resumed) :
    SameScopes state (startRun resumed occurredAt) ∧
      KeepsInvocations Resumes state (startRun resumed occurredAt) := by
  have hcontrol : Quiet state (applyControlFacts state observations) :=
    Quiet.of_eq rfl rfl rfl rfl Relation.ReflTransGen.refl
  rcases resumes_applyDueResumptions h with ⟨hsame, hkeeps⟩
  constructor
  · exact (hcontrol.toSameScopes.trans hsame).trans
      (quiet_startRun resumed occurredAt).toSameScopes
  · intro invocation hmem
    rcases hkeeps invocation hmem with ⟨kept, hkept, hrelated⟩
    refine ⟨kept, ?_, hrelated⟩
    unfold startRun
    split
    · exact hkept
    · exact hkept

theorem scheduled_deriveReadinessAndJoins {state after : WorkflowTransition}
    {coordinatorNodeIds : List String} {occurredAt : Timestamp}
    (hstate : ScheduledState executable ledger state)
    (h : deriveReadinessAndJoins state coordinatorNodeIds occurredAt = Except.ok after) :
    ScheduledState executable ledger after ∧ Extends state after := by
  unfold deriveReadinessAndJoins at h
  rcases exists_of_bind_eq_ok h with ⟨rooted, hrooted, h⟩
  rcases exists_of_bind_eq_ok h with ⟨bodies, hbodies, hjoins⟩
  rcases scheduled_deriveRootReadiness hstate hrooted with ⟨hrootedState, hrootedExtends⟩
  rcases scheduled_deriveLoopBodyReadiness hrootedState hbodies with
    ⟨hbodiesState, hbodiesExtends⟩
  rcases quiet_step hbodiesState (quiet_settlePendingJoins hjoins) with
    ⟨hjoinsState, hjoinsExtends⟩
  exact ⟨hjoinsState, (hrootedExtends.trans hbodiesExtends).trans hjoinsExtends⟩

/-!
## Admission of iterations
-/

def admissionsOfLoop (loop : LoopState) : AdmissionLog :=
  if loop.terminalStatus.isSome then []
  else
    match admitLoopIterations loop with
    | Except.error _ => []
    | Except.ok admission =>
        admission.admittedOrdinals.map fun ordinal =>
          { node := loop.loopId, path := loop.iterationPath, ordinal := ordinal }

def iterationAdmissions (state : WorkflowTransition) : AdmissionLog :=
  if state.cancelRequested || state.deadlineExpired then []
  else (loopsByControlKey state).flatMap admissionsOfLoop

theorem admitLoopIterations_spec {loop : LoopState} {admission : LoopAdmission}
    (h : admitLoopIterations loop = Except.ok admission) :
    exists count,
      admission.admittedOrdinals =
          (List.range count).map (fun offset => loop.nextOrdinal + offset) ∧
        admission.loop.window.Narrows (loop.window.extend count) ∧
        admission.loop.bodyRootNodeIds = loop.bodyRootNodeIds ∧
        (forall ordinal, ordinal ∈ admission.loop.terminalOrdinals ->
          ordinal ∈ loop.terminalOrdinals) ∧
        (forall ordinal, ordinal ∈ (loop.window.extend count).active ->
          ordinal ∈ admission.loop.activeOrdinals) ∧
        admission.loop.terminalStatus = loop.terminalStatus ∧
        loop.nextOrdinal + count ≤ max loop.nextOrdinal loop.collectionSize ∧
        admission.loop.collectionSize = loop.collectionSize ∧
        admission.loop.maxIterations = loop.maxIterations := by
  unfold admitLoopIterations at h
  dsimp only at h
  split at h
  · exact absurd h fail_ne_ok
  · cases h
    have hactive : forall ordinal, ordinal ∈ sortOrdinals loop.activeOrdinals ↔
        ordinal ∈ loop.activeOrdinals := by
      intro ordinal
      exact mem_sortWith
    refine ⟨_, rfl, ⟨rfl, rfl, rfl, rfl, ?_, ?_⟩, rfl, ?_, ?_, rfl, by omega, rfl, rfl⟩
    · simp [LoopState.window, LoopWindow.extend]
    · intro ordinal hmem
      rcases List.mem_append.mp hmem with hold | hnew
      · exact List.mem_append_left _ ((hactive ordinal).mp hold)
      · exact List.mem_append_right _ hnew
    · intro ordinal hmem
      exact mem_sortWith.mp hmem
    · intro ordinal hmem
      rcases List.mem_append.mp hmem with hold | hnew
      · exact List.mem_append_left _ ((hactive ordinal).mpr hold)
      · exact List.mem_append_right _ hnew

theorem settles_setLoop (state : WorkflowTransition) {loop admitted : LoopState} {count : Nat}
    (hnarrow : admitted.window.Narrows (loop.window.extend count)) :
    Settles (state.setLoop admitted).windows
      (replaceWindow state.windows loop.window (loop.window.extend count)) := by
  have hkey : admitted.controlInvocationKey = loop.controlInvocationKey := hnarrow.key
  constructor
  · rintro _ ⟨other, hother, rfl⟩
    rcases Keyed.mem_set.mp hother with rfl | ⟨hold, hne⟩
    · exact ⟨_, Set.mem_insert .., hnarrow⟩
    · refine ⟨other.window, Set.mem_insert_of_mem _ ⟨mem_windowsOf hold, ?_⟩,
        LoopWindow.Narrows.refl _⟩
      intro hsame
      exact hne (hsame.trans hkey.symm)
  · intro window hwindow
    rcases mem_replaceWindow_cases hwindow with rfl | ⟨⟨other, hother, rfl⟩, hne⟩
    · exact ⟨admitted.window, mem_windowsOf (Keyed.mem_set.mpr (Or.inl rfl)), hnarrow⟩
    · refine ⟨other.window, mem_windowsOf (Keyed.mem_set.mpr (Or.inr ⟨hother, ?_⟩)),
        LoopWindow.Narrows.refl _⟩
      intro hsame
      exact hne (hsame.trans hkey)

theorem ScheduledState.extend {state : WorkflowTransition} {loop : LoopState}
    {admission : LoopAdmission} (hstate : ScheduledState executable ledger state)
    (hloop : loop ∈ state.loops) (hopen : loop.terminalStatus = none)
    (h : admitLoopIterations loop = Except.ok admission) :
    ScheduledState executable (ledger.record (admissionsOfLoop loop))
      (state.setLoop admission.loop) := by
  have hlog : admissionsOfLoop loop =
      admission.admittedOrdinals.map fun ordinal =>
        { node := loop.loopId, path := loop.iterationPath, ordinal := ordinal } := by
    rw [admissionsOfLoop, hopen, h]
    rfl
  rcases admitLoopIterations_spec h with
    ⟨count, hordinals, hnarrow, hroots, hterminal, _, hstatus, hcount, hcollection, hiterations⟩
  have hadmissions : admissionsOfLoop loop = loop.window.admissions count := by
    rw [hlog, hordinals, List.map_map]
    rfl
  have hsettles := settles_setLoop state hnarrow
  have hwindow : loop.window ∈ windowsOf state.loops.items := mem_windowsOf hloop
  have hfits := hstate.records.fits loop hloop
  rw [hadmissions]
  refine ⟨⟨?_, hstate.records.addressed, ?_, ?_⟩, hstate.graph⟩
  · exact (hstate.records.nested.extend hwindow count).settle hsettles
      (windows_keyed (state.setLoop admission.loop).loops.nodup)
  · exact (hstate.records.recorded.extend hstate.records.nested hwindow count).settle hsettles
  · intro other hother
    rcases Keyed.mem_set.mp hother with rfl | ⟨hold, _⟩
    · have hnext : admission.loop.nextOrdinal = loop.nextOrdinal + count := hnarrow.next
      have hactive : forall ordinal, ordinal ∈ admission.loop.activeOrdinals ->
          ordinal ∈ loop.activeOrdinals ∨
            (loop.nextOrdinal ≤ ordinal ∧ ordinal < loop.nextOrdinal + count) := by
        intro ordinal hmem
        exact LoopWindow.mem_extend_active.mp (hnarrow.active ordinal hmem)
      refine ⟨?_, ?_, ?_, ?_, ?_, ?_, ?_⟩
      · intro ordinal hmem
        rcases hfits.terminal ordinal (hterminal ordinal hmem) with ⟨hlt, hinactive⟩
        refine ⟨by omega, ?_⟩
        intro hnow
        rcases hactive ordinal hnow with hbefore | ⟨hle, _⟩
        · exact hinactive hbefore
        · omega
      · intro ordinal hmem
        rcases hactive ordinal hmem with hbefore | ⟨_, hlt⟩
        · have hlt := hfits.active ordinal hbefore
          omega
        · omega
      · rw [hstatus]
        exact hfits.terminalStatus
      · have hid : admission.loop.loopId = loop.loopId := hnarrow.node
        rw [hid, hroots]
        exact hfits.roots
      · rw [hnext, hcollection]
        exact hcount.trans (Nat.max_le.mpr ⟨hfits.next, Nat.le_refl _⟩)
      · rw [hcollection, hiterations]
        exact hfits.collection
      · have hid : admission.loop.loopId = loop.loopId := hnarrow.node
        rw [hid, hiterations]
        exact hfits.iterations
    · exact hstate.records.fits other hold

theorem canStart_bodyRoot {state : WorkflowTransition} {loop : LoopState}
    {admission : LoopAdmission} (hstate : ScheduledState executable ledger state)
    (hloop : loop ∈ state.loops) (h : admitLoopIterations loop = Except.ok admission)
    {nodeId : String} {ordinal : Nat} (hnode : nodeId ∈ loop.bodyRootNodeIds)
    (hordinal : ordinal ∈ admission.admittedOrdinals) :
    CanStart executable (state.setLoop admission.loop) nodeId loop.branchPath
      (loop.iterationScope ordinal) := by
  rcases admitLoopIterations_spec h with ⟨count, hordinals, hnarrow, _, _, hactive, _⟩
  rw [hordinals] at hordinal
  rcases List.mem_map.mp hordinal with ⟨offset, hoffset, rfl⟩
  have hlt : offset < count := List.mem_range.mp hoffset
  refine ⟨?_, ?_, ?_⟩
  · rcases (hstate.records.fits loop hloop).roots with
      ⟨step, structured, hstep, hstructured, hroots⟩
    have hbody := isLoopBody_of_structured hstep hstructured
    rw [hroots.mem_iff, bodyRootNodeIds, sortOrdinal, mem_sortWith] at hnode
    rcases List.mem_map.mp (List.mem_filter.mp hnode).left with ⟨inner, hinner, rfl⟩
    exact ancestorsOf_bodyStep hstate hloop hbody hinner
  · refine Or.inr (Or.inr ⟨admission.loop.window,
      mem_windowsOf (Keyed.mem_set.mpr (Or.inl rfl)), ?_, loop.nextOrdinal + offset, ?_, ?_⟩)
    · rw [hnarrow.branch]
      exact List.prefix_refl _
    · apply hactive
      exact LoopWindow.mem_extend_active.mpr
        (Or.inr ⟨Nat.le_add_right .., Nat.add_lt_add_left hlt _⟩)
    · rw [hnarrow.iteration]
      rfl
  · intro scope hscope _ hpath
    have hbefore := (branch_of_iteration hstate hloop hscope hpath).right
    omega

theorem isStart_bodyRoot {state after : WorkflowTransition} {loop : LoopState} {ordinal : Nat}
    {nodeId : String} {occurredAt : Timestamp}
    (hstart : CanStart executable state nodeId loop.branchPath (loop.iterationScope ordinal))
    (h : admitBodyRoot loop ordinal occurredAt state nodeId = Except.ok after) :
    exists invocation, IsStart executable state invocation ∧ invocation.nodeId = nodeId ∧
      invocation.scope.path = loop.iterationScope ordinal ∧
      after = materializeWithEvent state invocation occurredAt := by
  unfold admitBodyRoot at h
  rcases exists_of_bind_eq_ok h with ⟨key, hkey, h⟩
  rcases exists_of_bind_eq_ok h with ⟨_, _, h⟩
  cases h
  have hraw := rawInvocationKey_of_scopedInvocationKey hkey
  exact ⟨bodyRootInvocation state loop ordinal nodeId key, ⟨hraw, hstart, rfl⟩, rfl, rfl, rfl⟩

theorem scheduled_admitBodyRoots {loop : LoopState} {occurredAt : Timestamp} :
    forall {items : List (Nat × String)} {state after : WorkflowTransition}, items.Nodup ->
      ScheduledState executable ledger state ->
      (forall item, item ∈ items ->
        CanStart executable state item.snd loop.branchPath (loop.iterationScope item.fst)) ->
      items.foldlM (fun state item => admitBodyRoot loop item.fst occurredAt state item.snd)
        state = Except.ok after ->
      ScheduledState executable ledger after ∧ Extends state after ∧ after.loops = state.loops := by
  intro items
  induction items with
  | nil =>
      intro state after _ hstate _ h
      rw [List.foldlM_nil, pure_eq_ok_iff] at h
      rw [← h]
      exact ⟨hstate, Extends.refl state, rfl⟩
  | cons item rest ih =>
      intro state after hnodup hstate hstarts h
      rw [List.foldlM_cons] at h
      rcases exists_of_bind_eq_ok h with ⟨next, hnext, hrest⟩
      rw [List.nodup_cons] at hnodup
      rcases isStart_bodyRoot (hstarts item (List.mem_cons_self ..)) hnext with
        ⟨invocation, hstart, hnode, hpath, rfl⟩
      rcases hstate.start hstart occurredAt with ⟨hnextState, hextends⟩
      have hrestStarts : forall other, other ∈ rest ->
          CanStart executable (materializeWithEvent state invocation occurredAt) other.snd
            loop.branchPath (loop.iterationScope other.fst) := by
        intro other hother
        apply CanStart.after hstate hstart occurredAt
          (hstarts other (List.mem_cons_of_mem _ hother))
        intro hsameNode hsamePath
        rw [hpath] at hsamePath
        have hparts := (List.append_inj' hsamePath rfl).right
        have hordinal : item.fst = other.fst := by
          injection (List.singleton_inj.mp hparts)
        have hsame : item = other := Prod.ext hordinal (hnode.symm.trans hsameNode)
        exact hnodup.left (hsame ▸ hother)
      rcases ih hnodup.right hnextState hrestStarts hrest with ⟨hfinal, hextends', hloops⟩
      exact ⟨hfinal, hextends.trans hextends', hloops⟩

theorem nodup_bodyRootNodeIds {loop : LoopState} (hfits : loop.Fits executable) :
    loop.bodyRootNodeIds.Nodup := by
  rcases hfits.roots with ⟨step, structured, hstep, hstructured, hroots⟩
  have hbody := isLoopBody_of_structured hstep hstructured
  have hids := nodup_nodeIdsOf
    (nodup_loopBodyList executable.graph.nodes executable.node_ids_nodup hbody)
  rw [hroots.nodup_iff, bodyRootNodeIds, sortOrdinal]
  exact (perm_sortWith _ _).nodup_iff.mpr (List.filter_sublist.nodup hids)

theorem scheduled_advanceLoop {state after : WorkflowTransition} {loop : LoopState}
    {occurredAt : Timestamp} (hstate : ScheduledState executable ledger state)
    (hloop : loop ∈ state.loops) (h : advanceLoop occurredAt state loop = Except.ok after) :
    ScheduledState executable (ledger.record (admissionsOfLoop loop)) after ∧ Extends state after ∧
      forall other, other ∈ state.loops ->
        other.controlInvocationKey ≠ loop.controlInvocationKey -> other ∈ after.loops := by
  unfold advanceLoop at h
  rcases exists_of_bind_eq_ok h with ⟨_, _, h⟩
  split at h
  · rename_i hterminal
    cases h
    rw [admissionsOfLoop, if_pos hterminal, RunLedger.record_nil]
    exact ⟨hstate, Extends.refl state, fun _ hother _ => hother⟩
  · rename_i hopen
    have hnone : loop.terminalStatus = none := by
      simpa using hopen
    rcases exists_of_bind_eq_ok h with ⟨admission, hadmission, h⟩
    rcases exists_of_bind_eq_ok h with ⟨admitted, hadmitted, hcompleted⟩
    have hstarted := hstate.extend hloop hnone hadmission
    have hextends : Extends state (state.setLoop admission.loop) :=
      Extends.of_eq rfl rfl rfl
    have hkey : admission.loop.controlInvocationKey = loop.controlInvocationKey := by
      rcases admitLoopIterations_spec hadmission with ⟨_, _, hnarrow, _⟩
      exact hnarrow.key
    have hordinals : admission.admittedOrdinals.Nodup := by
      rcases admitLoopIterations_spec hadmission with ⟨count, hlist, _⟩
      rw [hlist]
      apply List.Nodup.map _ List.nodup_range
      intro left right hsum
      exact Nat.add_left_cancel hsum
    have hpairs : (admission.admittedOrdinals.product loop.bodyRootNodeIds).foldlM
        (fun state item => admitBodyRoot loop item.fst occurredAt state item.snd)
        (state.setLoop admission.loop) = Except.ok admitted :=
      (foldlM_product _ _ _ _).trans hadmitted
    rcases scheduled_admitBodyRoots
      (hordinals.product (nodup_bodyRootNodeIds (hstate.records.fits loop hloop))) hstarted
      (by
        rintro ⟨ordinal, nodeId⟩ hitem
        rcases List.mem_product.mp hitem with ⟨hordinal, hnode⟩
        exact canStart_bodyRoot hstate hloop hadmission hnode hordinal) hpairs with
      ⟨hroots, hrootsExtends, hrootsLoops⟩
    have hquiet := quiet_completeExhaustedLoop hcompleted
    refine ⟨hroots.of_sameScopes hquiet.toSameScopes,
      (hextends.trans hrootsExtends).trans hquiet.extends, ?_⟩
    intro other hother hne
    rw [loops_completeExhaustedLoop hcompleted, hrootsLoops]
    exact Keyed.mem_set.mpr (Or.inr ⟨hother, hkey ▸ hne⟩)

theorem scheduled_advanceLoops {occurredAt : Timestamp} :
    forall {loops : List LoopState} {ledger : Ledger} {state after : WorkflowTransition},
      (loops.map LoopState.controlInvocationKey).Nodup ->
      ScheduledState executable ledger state -> (forall loop, loop ∈ loops -> loop ∈ state.loops) ->
      loops.foldlM (advanceLoop occurredAt) state = Except.ok after ->
      ScheduledState executable (ledger.record (loops.flatMap admissionsOfLoop)) after ∧
        Extends state after := by
  intro loops
  induction loops with
  | nil =>
      intro ledger state after _ hstate _ h
      rw [List.foldlM_nil, pure_eq_ok_iff] at h
      rw [← h, List.flatMap_nil, RunLedger.record_nil]
      exact ⟨hstate, Extends.refl state⟩
  | cons loop rest ih =>
      intro ledger state after hnodup hstate hmem h
      rw [List.foldlM_cons] at h
      rcases exists_of_bind_eq_ok h with ⟨next, hnext, hrest⟩
      rw [List.map_cons, List.nodup_cons] at hnodup
      rcases scheduled_advanceLoop hstate (hmem loop (List.mem_cons_self ..)) hnext with
        ⟨hnextState, hextends, hothers⟩
      have hrestMem : forall other, other ∈ rest -> other ∈ next.loops := by
        intro other hother
        apply hothers other (hmem other (List.mem_cons_of_mem _ hother))
        intro hsame
        exact hnodup.left (hsame ▸ List.mem_map_of_mem hother)
      rcases ih hnodup.right hnextState hrestMem hrest with ⟨hfinal, hextends'⟩
      rw [List.flatMap_cons, ← RunLedger.record_record]
      exact ⟨hfinal, hextends.trans hextends'⟩

theorem scheduled_advanceLoopIterations {state after : WorkflowTransition}
    {occurredAt : Timestamp} (hstate : ScheduledState executable ledger state)
    (h : advanceLoopIterations state occurredAt = Except.ok after) :
    ScheduledState executable (ledger.record (iterationAdmissions state)) after ∧
      Extends state after := by
  unfold advanceLoopIterations at h
  split at h
  · rename_i hstop
    cases h
    rw [iterationAdmissions, if_pos hstop, RunLedger.record_nil]
    exact ⟨hstate, Extends.refl state⟩
  · rename_i hrunning
    rw [iterationAdmissions, if_neg hrunning]
    have hsorted := perm_sortWith
      (fun left right : LoopState =>
        compareOrdinal left.controlInvocationKey right.controlInvocationKey) state.loops.items
    apply scheduled_advanceLoops _ hstate _ h
    · exact (hsorted.map _).nodup_iff.mpr state.loops.nodup
    · intro loop hloop
      exact hsorted.mem_iff.mp hloop

end Engine
end Pertexo
