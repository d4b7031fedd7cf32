import Pertexo.Engine.AttemptDiscipline
import Pertexo.Engine.ParallelCaps
import Pertexo.Engine.RunningFrame

/-!
# Retries of failed attempts
-/

namespace Pertexo
namespace Engine

open Library
open Values

namespace Retries

/-!
## The attempts of a step

Every failure that is retried is followed by the next attempt, and the first
decision that is not a retry ends the step.
-/

structure RetriedStep where
  sideEffectClass : SideEffectClass
  policy : RetryPolicy
  settings : Option StepRetrySettings
  jitterIdentity : Nat -> Option String

def RetriedStep.observed (step : RetriedStep) (attemptNumber : Nat)
    (observation : AttemptObservation) : RetryInput :=
  { sideEffectClass := step.sideEffectClass
    currentAttemptNumber := attemptNumber
    policy := step.policy
    settings := step.settings
    observation := observation
    jitterIdentity := step.jitterIdentity attemptNumber }

def retryDecisions (jitteredDelay : Nat -> String -> Nat) (step : RetriedStep) :
    Nat -> List AttemptObservation -> List RetryDecision
  | _, [] => []
  | attemptNumber, observation :: rest =>
      match decideRetry jitteredDelay (step.observed attemptNumber observation) with
      | .retry next delayMs =>
          .retry next delayMs :: retryDecisions jitteredDelay step next rest
      | decision => [decision]

def isRetry : RetryDecision -> Bool
  | .retry _ _ => true
  | _ => false

/-- The retries of a step are bounded one by one, and all together. -/
structure KeepsToPolicy (jitteredDelay : Nat -> String -> Nat) (step : RetriedStep)
    (first : Nat) (observations : List AttemptObservation) : Prop where
  each : forall index attemptNumber delayMs,
    (retryDecisions jitteredDelay step first observations)[index]? =
        some (.retry attemptNumber delayMs) ->
      exists observation, observations[index]? = some observation ∧
        IsBoundedRetry (step.observed (first + index) observation) attemptNumber delayMs
  count : (retryDecisions jitteredDelay step first observations).countP isRetry ≤
    allowedAttempts step.policy step.settings - first

theorem keepsToPolicy (jitteredDelay : Nat -> String -> Nat) (step : RetriedStep) (first : Nat)
    (observations : List AttemptObservation) :
    KeepsToPolicy jitteredDelay step first observations := by
  induction observations generalizing first with
  | nil =>
      constructor
      · intro index attemptNumber delayMs h
        cases h
      · exact Nat.zero_le _
  | cons observation rest ih =>
      cases hdecision : decideRetry jitteredDelay (step.observed first observation) with
      | retry next delayMs =>
          have hbounded := decideRetry_retry hdecision
          have hnext : next = first + 1 := hbounded.next
          have hallowed : next ≤ allowedAttempts step.policy step.settings := hbounded.allowed
          have hdecisions : retryDecisions jitteredDelay step first (observation :: rest) =
              .retry next delayMs :: retryDecisions jitteredDelay step next rest := by
            rw [retryDecisions, hdecision]
          constructor
          · intro index attemptNumber delay h
            rw [hdecisions] at h
            cases index with
            | zero =>
                cases h
                exact ⟨observation, rfl, hbounded⟩
            | succ index =>
                rcases (ih next).each index attemptNumber delay h with ⟨later, hlater, hretry⟩
                refine ⟨later, hlater, ?_⟩
                rw [hnext] at hretry
                have hindex : first + (index + 1) = first + 1 + index := by omega
                rw [hindex]
                exact hretry
          · rw [hdecisions, List.countP_cons, isRetry, if_pos rfl]
            have hcount := (ih next).count
            omega
      | succeeded | failed _ | outcomeUnknown =>
          constructor
          · intro index attemptNumber delay h
            rw [retryDecisions, hdecision] at h
            cases index with
            | zero => cases h
            | succ index => cases h
          · rw [retryDecisions, hdecision]
            exact Nat.zero_le _

/-!
## The policy of the engine

No success follows a failure.
-/

theorem decideRetry_inputOfFailure (host : EngineHost) (runId : String)
    (failure : AttemptFailure) (node : NodeRecord) :
    (decideRetry host.jitteredDelay (inputOfFailure runId failure node)).forCoordinator =
      some (Engine.decideRetry host runId failure node) := by
  have hfailed : decideRetry host.jitteredDelay (inputOfFailure runId failure node) ≠
      .succeeded := by
    intro hsucceeded
    unfold decideRetry at hsucceeded
    rw [if_neg (by intro h; cases h)] at hsucceeded
    split at hsucceeded
    · cases hsucceeded
    · split at hsucceeded
      · cases hsucceeded
      · dsimp only at hsucceeded
        split at hsucceeded <;> cases hsucceeded
  unfold Engine.decideRetry
  cases hdecision : decideRetry host.jitteredDelay (inputOfFailure runId failure node) with
  | succeeded => exact absurd hdecision hfailed
  | failed _ | outcomeUnknown | retry _ _ => rfl

end Retries

/-!
## The class of an attempt

The scheduler admits an attempt under the class its step is pinned to, unless
the attempts of the step only read. A failure is resolved under the pinned class.
-/

variable {executable : CompiledWorkflowExecutable} {ledger : Ledger}

def admittedSideEffectClass (node : NodeRecord) : SideEffectClass :=
  if node.readOnlyAttempts then .safe else node.sideEffectClass

/-- The step as it is under another class. -/
def NodeRecord.underClass (node : NodeRecord) (sideEffectClass : SideEffectClass) : NodeRecord :=
  { node with sideEffectClass := sideEffectClass }

/-- Every failure that the checkpoint accepts of the attempt is resolved under its class. -/
def ResolvesAsAdmitted (host : EngineHost) (executable : CompiledWorkflowExecutable)
    (checkpoint : WorkflowCheckpoint) (attempt : AttemptAdmissionPlan) : Prop :=
  forall runId controlCanceled controlDeadline failure observation node,
    failure.attempt.invocationKey = attempt.invocationKey ->
    failure.attempt.attemptNumber = attempt.attemptNumber ->
    (nodesById executable).get? attempt.nodeId = some node ->
    resolveAttemptFailure host runId checkpoint (nodesById executable) controlCanceled
        controlDeadline failure = Except.ok observation ->
    observation = resolveFailure host runId (node.record.underClass attempt.sideEffectClass)
      controlCanceled controlDeadline failure

def IsRunningAttempt (checkpoint : WorkflowCheckpoint) (attempt : AttemptAdmissionPlan) : Prop :=
  exists invocation, invocation ∈ checkpoint.invocations ∧
    invocation.invocationKey = attempt.invocationKey ∧ invocation.status = .running ∧
    invocation.attemptNumber = attempt.attemptNumber

/-- An attempt of the plan names its step, under the class the scheduler has for it. -/
structure IsClassed (nodes : SchedulerNodeLookup) (scopes : Set InvocationScope)
    (attempt : AttemptAdmissionPlan) : Prop where
  addressed : exists scope, scope ∈ scopes ∧ scope.key = attempt.invocationKey ∧
    scope.node = attempt.nodeId
  classed : exists entry, nodes.get? attempt.nodeId = some entry ∧
    attempt.sideEffectClass = admittedSideEffectClass entry.node

theorem exists_entry_of_attemptClass {nodes : SchedulerNodeLookup} {nodeId : String}
    {sideEffectClass : SideEffectClass}
    (h : schedulerAttemptSideEffectClass nodes nodeId = Except.ok sideEffectClass) :
    exists entry, nodes.get? nodeId = some entry ∧
      sideEffectClass = admittedSideEffectClass entry.node := by
  unfold schedulerAttemptSideEffectClass schedulerNodeSideEffectClass at h
  rcases exists_of_bind_eq_ok h with ⟨pinned, hpinned, h⟩
  cases hget : nodes.get? nodeId with
  | none =>
      rw [hget] at hpinned
      exact absurd hpinned fail_ne_ok
  | some entry =>
      rw [hget] at hpinned h
      cases hpinned
      cases h
      exact ⟨entry, rfl, rfl⟩

theorem isClassed_admitAttempts {state : WorkflowTransition} {keys : List String}
    {progress : AttemptAdmissions} (h : admitAttempts state keys = Except.ok progress) :
    forall attempt, attempt ∈ progress.attempts ->
      IsClassed state.schedulerNodes state.scopes attempt := by
  have hinvariant : progress.state.schedulerNodes = state.schedulerNodes ∧
      progress.state.scopes = state.scopes ∧
      forall attempt, attempt ∈ progress.attempts ->
        IsClassed state.schedulerNodes state.scopes attempt := by
    apply foldlM_invariant
      (fun progress : AttemptAdmissions =>
        progress.state.schedulerNodes = state.schedulerNodes ∧
          progress.state.scopes = state.scopes ∧
          forall attempt, attempt ∈ progress.attempts ->
            IsClassed state.schedulerNodes state.scopes attempt) _ _ h
    · refine ⟨rfl, rfl, ?_⟩
      intro attempt hattempt
      cases hattempt
    · rintro key _ before after ⟨hnodes, hscopes, hclassed⟩ hstep
      unfold admitAttempt at hstep
      split at hstep
      · exact absurd hstep fail_ne_ok
      · rename_i invocation hget
        rcases exists_of_bind_eq_ok hstep with ⟨_, _, hstep⟩
        dsimp only at hstep
        rcases exists_of_bind_eq_ok hstep with ⟨sideEffectClass, hclass, hstep⟩
        cases hstep
        have hmem := Keyed.mem_of_get? hget
        refine ⟨hnodes, ?_, ?_⟩
        · show (before.state.setInvocation _).scopes = _
          rw [scopes_setInvocation hmem, hscopes]
          rfl
        · intro attempt hattempt
          rcases List.mem_append.mp hattempt with hold | hnew
          · exact hclassed attempt hold
          · cases List.mem_singleton.mp hnew
            rw [hnodes] at hclass
            constructor
            · have hkey : invocation.invocationKey = key := Keyed.key_of_get? hget
              refine ⟨invocation.scope, ?_, hkey, rfl⟩
              rw [← hscopes]
              exact mem_scopesOf hmem
            · exact exists_entry_of_attemptClass hclass
  exact hinvariant.right.right

theorem classed_of_advance {host : EngineHost} {input : AdvanceWorkflowInput}
    {plan : WorkflowTransitionPlan}
    (hcheckpoint : ScheduledCheckpoint input.executable ledger input.checkpoint)
    (h : advanceWorkflow host input = Except.ok plan) {attempt : AttemptAdmissionPlan}
    (hattempt : attempt ∈ plan.attempts) :
    (exists scope, IsAddress input.executable input.workflowVersionId scope ∧
        scope.key = attempt.invocationKey ∧ scope.node = attempt.nodeId) ∧
      exists node, (nodesById input.executable).get? attempt.nodeId = some node ∧
        attempt.sideEffectClass = admittedSideEffectClass node.record := by
  rcases exists_advancePasses h with ⟨passes⟩
  rcases exists_planPasses passes.plans with ⟨planned⟩
  rw [planned.attempts] at hattempt
  rcases isClassed_admitAttempts planned.admits attempt hattempt with
    ⟨⟨scope, hscope, hkey, hnode⟩, entry, hentry, hclass⟩
  rcases passes.observed_spec hcheckpoint with ⟨hobserved, hcurrent⟩
  rcases passes.stopped_spec hobserved with ⟨hstopped, hextends⟩
  constructor
  · refine ⟨scope, ?_, hkey, hnode⟩
    have haddress := hstopped.records.addressed scope hscope
    rw [hextends.current, hcurrent, passes.version] at haddress
    exact haddress
  · rw [passes.schedulerNodes_stopped hcheckpoint] at hentry
    rcases exists_node_of_schedulerNode hentry with ⟨node, hget, hrecord⟩
    rw [← hrecord] at hclass
    exact ⟨node, hget, hclass⟩

theorem runRecords_of_continuation {host : EngineHost} {workflowVersionId : String}
    {more : List AdvanceWorkflowInput} {before after : WorkflowCheckpoint}
    (hbefore : exists ledger, RunRecords executable workflowVersionId ledger before)
    (hmore : WorkflowContinuation host executable workflowVersionId before more after) :
    exists ledger, RunRecords executable workflowVersionId ledger after := by
  apply hmore.invariant fun _ checkpoint =>
    exists ledger, RunRecords executable workflowVersionId ledger checkpoint
  · rintro _ rfl
    exact hbefore
  · rintro _ _ input _ _ ⟨ledger, hrecords⟩ ⟨rfl, rfl, rfl, plan, hadvance, rfl⟩
    rcases exists_advanceRecords hrecords.scheduled hadvance with ⟨_, _, hadvanced⟩
    exact ⟨_, hadvanced.planned⟩

theorem resolveAttemptFailure_eq_ok_iff {host : EngineHost} {runId : String}
    {checkpoint : WorkflowCheckpoint} {nodes : NodeIndex} {controlCanceled controlDeadline : Bool}
    {failure : AttemptFailure} {observation : WorkflowObservation} :
    resolveAttemptFailure host runId checkpoint nodes controlCanceled controlDeadline failure =
        Except.ok observation ↔
      exists invocation node,
        findInvocation checkpoint failure.attempt.invocationKey = some invocation ∧
          nodes.get? invocation.nodeId = some node ∧ invocation.status = .running ∧
          invocation.attemptNumber = failure.attempt.attemptNumber ∧
          observation = resolveFailure host runId node.record controlCanceled controlDeadline
            failure := by
  constructor
  · intro h
    unfold resolveAttemptFailure at h
    split at h
    · exact absurd h fail_ne_ok
    · rename_i invocation hfind
      split at h
      · exact absurd h fail_ne_ok
      · rename_i node hnode
        rcases exists_of_bind_eq_ok h with ⟨_, hassert, h⟩
        cases h
        have hrunning := assertThat_eq_ok_iff.mp hassert
        rw [Bool.and_eq_true, beq_iff_eq, beq_iff_eq] at hrunning
        exact ⟨invocation, node, hfind, hnode, hrunning.left, hrunning.right, rfl⟩
  · rintro ⟨invocation, node, hfind, hnode, hstatus, hnumber, rfl⟩
    unfold resolveAttemptFailure
    rw [hfind]
    dsimp only
    rw [hnode]
    dsimp only
    rw [hstatus, hnumber, beq_self_eq_true, beq_self_eq_true]
    rfl

/-- The failure that tells every class from the safe one. -/
def dispatchedCancellation (attempt : AttemptAdmissionPlan) : AttemptFailure :=
  { occurredAt := 0
    attempt :=
      { invocationKey := attempt.invocationKey
        attemptId := "00000000-0000-1000-8000-0000000000b1"
        attemptNumber := attempt.attemptNumber }
    failureKind := .canceled
    errorKind := .canceled
    possiblyDispatched := true
    safeErrorCode := "execution.canceled" }

theorem resolveFailure_dispatchedCancellation (host : EngineHost) (runId : String)
    (node : NodeRecord) (attempt : AttemptAdmissionPlan) :
    resolveFailure host runId node false false (dispatchedCancellation attempt) =
      failureOutcome (dispatchedCancellation attempt)
        (if node.sideEffectClass = .safe then .canceled else .outcomeUnknown) none := by
  cases hclass : node.sideEffectClass with
  | safe | idempotentWithKey | unsafeEffect => simp [resolveFailure, dispatchedCancellation, hclass]

theorem underClass_self (node : NodeRecord) : node.underClass node.sideEffectClass = node := by
  cases node
  rfl

theorem findInvocation_of_mem {checkpoint : WorkflowCheckpoint} {invocation : InvocationState}
    (hnodup : (checkpoint.invocations.map InvocationState.invocationKey).Nodup)
    (hmem : invocation ∈ checkpoint.invocations) :
    findInvocation checkpoint invocation.invocationKey = some invocation := by
  have hget : (Keyed.ofList checkpoint.invocations : InvocationMap).get?
      invocation.invocationKey = some invocation :=
    Keyed.get?_of_mem ((Keyed.mem_ofList hnodup).mpr hmem)
  rw [Keyed.get?, Keyed.ofList_items hnodup] at hget
  exact hget

/-- A failure is resolved under the class of its attempt exactly where no class is narrowed. -/
theorem resolvesAsAdmitted_iff {host : EngineHost} {checkpoint : WorkflowCheckpoint}
    {attempt : AttemptAdmissionPlan} {node : ExecutableNode}
    (hnode : (nodesById executable).get? attempt.nodeId = some node)
    (hclass : attempt.sideEffectClass = admittedSideEffectClass node.record)
    (hrunning : IsRunningAttempt checkpoint attempt)
    (hsame : forall invocation, invocation ∈ checkpoint.invocations ->
      invocation.invocationKey = attempt.invocationKey -> invocation.nodeId = attempt.nodeId)
    (hnodup : (checkpoint.invocations.map InvocationState.invocationKey).Nodup) :
    ResolvesAsAdmitted host executable checkpoint attempt ↔
      (node.record.readOnlyAttempts = false ∨ node.record.sideEffectClass = .safe) := by
  rcases hrunning with ⟨invocation, hmem, hkey, hstatus, hnumber⟩
  have hfind : findInvocation checkpoint attempt.invocationKey = some invocation := by
    rw [← hkey]
    exact findInvocation_of_mem hnodup hmem
  have hinvocationNode : (nodesById executable).get? invocation.nodeId = some node := by
    rw [hsame invocation hmem hkey]
    exact hnode
  constructor
  · intro hresolves
    have hresolved := hresolves "run" false false
      (dispatchedCancellation attempt) _ node rfl rfl hnode
      (resolveAttemptFailure_eq_ok_iff.mpr
        ⟨invocation, node, hfind, hinvocationNode, hstatus, hnumber, rfl⟩)
    rw [resolveFailure_dispatchedCancellation, resolveFailure_dispatchedCancellation, hclass,
      admittedSideEffectClass] at hresolved
    cases hreads : node.record.readOnlyAttempts with
    | false => exact Or.inl rfl
    | true =>
        apply Or.inr
        by_cases hsafe : node.record.sideEffectClass = .safe
        · exact hsafe
        · rw [hreads, if_neg hsafe] at hresolved
          cases hresolved
  · intro hcondition runId controlCanceled controlDeadline failure observation other hfailure
      _ hother hresolved
    rw [hnode, Option.some.injEq] at hother
    subst hother
    rcases resolveAttemptFailure_eq_ok_iff.mp hresolved with
      ⟨found, foundNode, hfound, hfoundNode, _, _, rfl⟩
    rw [hfailure, hfind, Option.some.injEq] at hfound
    rw [← hfound, hinvocationNode, Option.some.injEq] at hfoundNode
    have hpinned : attempt.sideEffectClass = node.record.sideEffectClass := by
      rw [hclass, admittedSideEffectClass]
      rcases hcondition with hwrites | hsafe
      · rw [hwrites]
        rfl
      · rw [hsafe, ite_self]
    rw [← hfoundNode, hpinned, underClass_self]

/-- Retries keep to the policy, and a failure is resolved under the class its attempt was
admitted under exactly where the attempts of the step are not narrowed. -/
theorem retry_safety (host : EngineHost) :
    (forall jitteredDelay step first observations,
      Retries.KeepsToPolicy jitteredDelay step first observations) ∧
      (forall runId failure node,
        (Retries.decideRetry host.jitteredDelay
          (Retries.inputOfFailure runId failure node)).forCoordinator =
          some (decideRetry host runId failure node)) ∧
      forall (executable : CompiledWorkflowExecutable)
        (workflowVersionId : String) (budget : Nat) inputs before input plan attempt more after,
        WorkflowRun host executable workflowVersionId budget inputs before ->
        input.checkpoint = before -> input.executable = executable ->
        input.workflowVersionId = workflowVersionId ->
        advanceWorkflow host input = Except.ok plan -> attempt ∈ plan.attempts ->
        WorkflowContinuation host executable workflowVersionId plan.checkpoint more after ->
        IsRunningAttempt after attempt ->
        exists node, (nodesById executable).get? attempt.nodeId = some node ∧
          (ResolvesAsAdmitted host executable after attempt ↔
            (node.record.readOnlyAttempts = false ∨ node.record.sideEffectClass = .safe)) := by
  refine ⟨Retries.keepsToPolicy, Retries.decideRetry_inputOfFailure host, ?_⟩
  rintro executable workflowVersionId budget inputs before input plan attempt more after hrun
    rfl rfl rfl hadvance hattempt hmore hrunning
  rcases runRecords_of_run hrun with ⟨ledger, hrecords⟩
  rcases classed_of_advance hrecords.scheduled hadvance hattempt with
    ⟨⟨scope, haddress, hkey, hscope⟩, node, hnode, hclass⟩
  rcases exists_advanceRecords hrecords.scheduled hadvance with ⟨_, _, hadvanced⟩
  rcases runRecords_of_continuation ⟨_, hadvanced.planned⟩ hmore with ⟨_, hlater⟩
  refine ⟨node, hnode, resolvesAsAdmitted_iff hnode hclass hrunning ?_ hlater.nodup⟩
  intro invocation hmem hsame
  have hother := hlater.scheduled.addressed invocation.scope (mem_scopesOf hmem)
  rw [hlater.version] at hother
  rw [← hscope]
  exact (hother.eq_of_key_eq haddress (hsame.trans hkey.symm)).left

/-!
## A read-only request

A request step is pinned to unsafe effects, and its GET config only reads.
-/

def getStep : NodeRecord :=
  { id := "get"
    definition := { key := "http.request", version := 1 }
    sideEffectClass := .unsafeEffect
    readOnlyAttempts := true }

def getExecutable : CompiledWorkflowExecutable :=
  { graph := { nodes := [.step getStep], edges := [] }
    failureRoutes := []
    node_ids_nodup := by decide +kernel
    paired_ancestors := by decide +kernel }

def getInput : AdvanceWorkflowInput :=
  { loopInput loopCreated [] [] with executable := getExecutable }

def getAttempt : AttemptAdmissionPlan :=
  { invocationKey := rawInvocationKey loopVersion "get" [] []
    nodeId := "get"
    attemptNumber := 1
    admissionKind := .execute
    sideEffectClass := .safe
    branchPath := none
    iterationPath := none }

def getStarted : WorkflowCheckpoint :=
  { loopCreated with
    revision := 1
    runStatus := .running
    nextEventSequence := 4
    admittedInvocationKeys := [getAttempt.invocationKey]
    invocations :=
      [{ invocationKey := getAttempt.invocationKey
         nodeId := "get"
         status := .running
         attemptNumber := 1 }] }

/-- The response has arrived and cannot be stored. -/
def unstoredResponse : AttemptFailure :=
  { occurredAt := 1767225600000
    attempt :=
      { invocationKey := getAttempt.invocationKey
        attemptId := "00000000-0000-1000-8000-0000000000b1"
        attemptNumber := 1 }
    failureKind := .retry
    errorKind := .provider
    possiblyDispatched := true
    safeErrorCode := "execution.provider" }

/-- The attempt is admitted as safe, and its response that is not stored ends the step as unknown
where the admitted class would have it repeated. -/
theorem unstoredResponse_not_retried :
    exists plan, advanceWorkflow plainHost getInput = Except.ok plan ∧
      getAttempt ∈ plan.attempts ∧ IsRunningAttempt plan.checkpoint getAttempt ∧
      resolveAttemptFailure plainHost "run" plan.checkpoint (nodesById getExecutable) false false
          unstoredResponse =
        Except.ok (failureOutcome unstoredResponse .outcomeUnknown none) ∧
      resolveFailure plainHost "run" (getStep.underClass getAttempt.sideEffectClass) false false
          unstoredResponse =
        .wait
          { invocationKey := getAttempt.invocationKey
            resumeAt := 1767225601000
            waitKind := .retryBackoff
            coordinatorDerived := true } ∧
      ¬ ResolvesAsAdmitted plainHost getExecutable plan.checkpoint getAttempt := by
  have hplanned : (advanceWorkflow plainHost getInput).map
      (fun plan => (plan.attempts, plan.checkpoint)) = Except.ok ([getAttempt], getStarted) := by
    decide +kernel
  rcases exists_of_map_eq_ok hplanned with ⟨plan, hplan, hpair⟩
  injection hpair with hattempts hcheckpoint
  have hresolved : resolveAttemptFailure plainHost "run" getStarted (nodesById getExecutable)
      false false unstoredResponse =
        Except.ok (failureOutcome unstoredResponse .outcomeUnknown none) := by
    decide +kernel
  refine ⟨plan, hplan, hattempts ▸ List.mem_singleton_self _, ?_, ?_, by decide +kernel, ?_⟩
  · rw [hcheckpoint]
    exact ⟨_, List.mem_singleton_self _, rfl, rfl, rfl⟩
  · rw [hcheckpoint]
    exact hresolved
  · rw [hcheckpoint]
    intro hresolves
    have hnode : (nodesById getExecutable).get? getAttempt.nodeId = some (.step getStep) :=
      Keyed.get?_eq_some_iff.mpr ⟨mem_nodesById.mpr (List.mem_singleton_self _), rfl⟩
    have hadmitted := hresolves "run" false false unstoredResponse _ _ rfl rfl hnode hresolved
    exact absurd hadmitted (by decide +kernel)

/-- The step is narrowed, so its failures are not resolved as its attempt was admitted. -/
theorem retry_safety_sample :
    Retries.KeepsToPolicy plainHost.jitteredDelay
        { sideEffectClass := .unsafeEffect
          policy := Retries.ENGINE_RETRY_POLICY
          settings := none
          jitterIdentity := fun _ => none }
        1 [.ambiguous false, .ambiguous true] ∧
      exists node, (nodesById getExecutable).get? "get" = some node ∧
        (ResolvesAsAdmitted plainHost getExecutable getStarted getAttempt ↔
          (node.record.readOnlyAttempts = false ∨ node.record.sideEffectClass = .safe)) := by
  have hplanned : (advanceWorkflow plainHost getInput).map
      (fun plan => (plan.attempts, plan.checkpoint)) = Except.ok ([getAttempt], getStarted) := by
    decide +kernel
  rcases exists_of_map_eq_ok hplanned with ⟨plan, hplan, hpair⟩
  injection hpair with hattempts hcheckpoint
  have hcreated : IsCreated loopVersion 100 loopCreated := ⟨none, by decide +kernel⟩
  constructor
  · exact (retry_safety plainHost).left _ _ _ _
  · apply (retry_safety plainHost).right.right getExecutable loopVersion 100 [] loopCreated getInput
      plan getAttempt [] getStarted (Run.start hcreated) rfl rfl rfl hplan
    · rw [hattempts]
      exact List.mem_singleton_self _
    · exact Run.start hcheckpoint.symm
    · exact ⟨_, List.mem_singleton_self _, rfl, rfl, rfl⟩

end Engine
end Pertexo
