import Pertexo.Engine.MatchesExecutable
import Pertexo.Engine.PersistedFacts

/-!
# Control steps that declare work

## Completed outputs

A control step completes with an output that the coordinator reads. The output
is trusted only beside the persisted success of the same attempt.
-/

namespace Pertexo
namespace Engine

open Library
open Values

structure CompletedOutput where
  sequence : Nat
  attemptId : String
  invocationKey : String
  value : JsonValue

structure OutcomeIdentity where
  sequence : Nat
  attemptId : String
  invocationKey : String
deriving DecidableEq, Repr

structure SuccessfulOutcome where
  identity : OutcomeIdentity
  output : Option OutputReference
deriving DecidableEq, Repr

abbrev SuccessfulOutcomes := Keyed SuccessfulOutcome SuccessfulOutcome.identity

def successfulOutcome? : PersistedFact -> Option SuccessfulOutcome
  | .sequenced fact =>
      match fact.detail with
      | .outcome attempt .succeeded output _ =>
          some
            { identity :=
                { sequence := fact.sequence
                  attemptId := attempt.attemptId
                  invocationKey := attempt.invocationKey }
              output := output }
      | _ => none
  | _ => none

def indexPersistedSuccessfulOutcomes (facts : List PersistedFact) : SuccessfulOutcomes :=
  Keyed.ofList (facts.filterMap successfulOutcome?)

def CompletedOutput.identity (material : CompletedOutput) : OutcomeIdentity :=
  { sequence := material.sequence
    attemptId := material.attemptId
    invocationKey := material.invocationKey }

def completedOutputReference (outcome : SuccessfulOutcome) (attemptId : String) :
    Option OutputReference :=
  match outcome.output with
  | some (.inline reference) => if reference == attemptId then some (.inline attemptId) else none
  | some (.artifact artifactId) => if isUuid artifactId then some (.artifact artifactId) else none
  | _ => none

def nodeOfInvocation (nodes : NodeIndex) (invocation : Option InvocationState) :
    Option ExecutableNode :=
  nodes.get? ((invocation.map InvocationState.nodeId).getD "")

/-!
## Calls
-/

structure WorkflowCallIntent where
  invocationKey : String
  target : Option String
  input : OutputReference
deriving DecidableEq, Repr

structure DeclaredWork (α : Type) where
  intents : List α
  declarationInvocationKeys : List String
  observations : List WorkflowObservation

def callIntent (checkpoint : WorkflowCheckpoint) (nodes : NodeIndex)
    (intents : List WorkflowCallIntent) (outcome : SuccessfulOutcome) :
    EngineResult (List WorkflowCallIntent) :=
  match findInvocation checkpoint outcome.identity.invocationKey with
  | none => Except.ok intents
  | some owner =>
      match nodes.get? owner.nodeId with
      | none => Except.ok intents
      | some node =>
          if !isWorkflowCallDefinition node.record.definition then Except.ok intents
          else
            match completedOutputReference outcome outcome.identity.attemptId with
            | none => fail .observationInvalid "Call declaration input is missing"
            | some input => do
                assertObservation
                  (!intents.any fun intent => intent.invocationKey == owner.invocationKey)
                  "Call declaration conflicts"
                let intent : WorkflowCallIntent :=
                  { invocationKey := owner.invocationKey
                    target := node.record.config.callTarget
                    input := input }
                pure (intents ++ [intent])

/-- The success of a Call prepares its input; only the child fact settles it. -/
def callDeclarationObservations (outcomes : SuccessfulOutcomes)
    (checkpoint : WorkflowCheckpoint) (nodes : NodeIndex) :
    EngineResult (DeclaredWork WorkflowCallIntent) := do
  let intents ← outcomes.items.foldlM (callIntent checkpoint nodes) []
  let declared := intents.map WorkflowCallIntent.invocationKey
  pure
    { intents := intents
      declarationInvocationKeys := declared
      observations := declared.map WorkflowObservation.callStarted }

inductive CallOutcomeStatus where
  | succeeded
  | failed
  | canceled
  | timedOut
  | outcomeUnknown
  | refused
deriving DecidableEq, Repr

def CallOutcomeStatus.text : CallOutcomeStatus -> String
  | .succeeded => "succeeded"
  | .failed => "failed"
  | .canceled => "canceled"
  | .timedOut => "timed_out"
  | .outcomeUnknown => "outcome_unknown"
  | .refused => "refused"

structure WorkflowCallOutcome where
  callId : String
  invocationKey : String
  nodeId : String
  status : CallOutcomeStatus
  branchPath : BranchPath
  iterationPath : IterationPath
  reasonCode : Option String := none
deriving DecidableEq, Repr

def assertScopePaths (branchPath : BranchPath) (iterationPath : IterationPath) :
    EngineResult Unit := do
  assertBranchPath "branch scope nodeId is required" "branch scope outputPort is required"
    branchPath
  assertIterationPath "iteration scope loopNodeId is required"
    "iteration scope ordinal is invalid" iterationPath

def parseCallOutcome (fact : WorkflowCallOutcome) : EngineResult Unit := do
  assertObservation
    (isUuid fact.callId && validInvocationKey fact.invocationKey && fact.nodeId != "" &&
      fact.reasonCode.all isSafeExecutorErrorCode)
    "Call outcome identity is invalid"
  assertScopePaths fact.branchPath fact.iterationPath

/-- A stored fact names an exact scope of a step of the executable. -/
def outcomeScopeIsValid (checkpoint : WorkflowCheckpoint) (executable : CompiledWorkflowExecutable)
    (nodes : NodeIndex) (owns : NodeRecord -> Bool) (nodeId invocationKey : String)
    (branchPath : BranchPath) (iterationPath : IterationPath) : EngineResult Bool := do
  let expectedKey ← scopedInvocationKey checkpoint.workflowVersionId nodeId (some branchPath)
    (some iterationPath)
  pure <|
    scopeMatchesAncestors executable.graph nodeId iterationPath &&
      branchPath.all (branchPartIsKnown nodes) && expectedKey == invocationKey &&
      (nodes.get? nodeId).any fun node => owns node.record

def callOutcomeStatus : CallOutcomeStatus -> NodeStatus
  | .succeeded => .succeeded
  | .outcomeUnknown => .outcomeUnknown
  | _ => .failed

def callOutcomeObservation (fact : WorkflowCallOutcome) : WorkflowObservation :=
  .outcome
    { invocationKey := fact.invocationKey
      status := callOutcomeStatus fact.status
      output := if fact.status == .succeeded then some (.call fact.callId) else none
      reasonCode :=
        if fact.status == .succeeded then none
        else some (fact.reasonCode.getD ("call_child_" ++ fact.status.text))
      coordinatorDerived := true }

def sameCallResult (output : Option OutputReference) (callId : String) : Bool :=
  match output with
  | some (.call known) => known == callId
  | _ => true

structure OutcomeProgress (α : Type) where
  seen : List α := []
  observations : List WorkflowObservation := []

def settleCallOutcome (checkpoint : WorkflowCheckpoint) (fact : WorkflowCallOutcome) :
    EngineResult (List WorkflowObservation) :=
  match findInvocation checkpoint fact.invocationKey with
  | none =>
      if isFinishedIterationScope checkpoint.loops (some fact.branchPath)
          (some fact.iterationPath) then
        Except.ok []
      else fail .observationInvalid "Call outcome invocation is unknown"
  | some owner =>
      if isTerminalNodeStatus owner.status then do
        assertObservation (sameCallResult owner.output fact.callId)
          "Call result identity conflicts"
        pure []
      else do
        assertObservation (owner.status == .waiting && owner.waitKind == some .workflowCall)
          "Call outcome has no durable wait"
        pure [callOutcomeObservation fact]

def applyCallOutcome (checkpoint : WorkflowCheckpoint) (executable : CompiledWorkflowExecutable)
    (nodes : NodeIndex) (progress : OutcomeProgress WorkflowCallOutcome)
    (fact : WorkflowCallOutcome) : EngineResult (OutcomeProgress WorkflowCallOutcome) := do
  parseCallOutcome fact
  match progress.seen.find? fun other => other.invocationKey == fact.invocationKey with
  | some previous =>
      assertObservation (decide (previous = fact)) "Call outcomes conflict"
      pure progress
  | none =>
      let valid ← outcomeScopeIsValid checkpoint executable nodes
        (fun node => isWorkflowCallDefinition node.definition) fact.nodeId fact.invocationKey
        fact.branchPath fact.iterationPath
      assertObservation valid "Call outcome scope is invalid"
      let settled ← settleCallOutcome checkpoint fact
      pure
        { seen := progress.seen ++ [fact]
          observations := progress.observations ++ settled }

/-- Call facts are immutable relations, not additions to the event cursor of the parent. -/
def callOutcomeObservations (facts : List WorkflowCallOutcome) (checkpoint : WorkflowCheckpoint)
    (executable : CompiledWorkflowExecutable) (nodes : NodeIndex) :
    EngineResult (List WorkflowObservation) := do
  let progress ← facts.foldlM (applyCallOutcome checkpoint executable nodes) {}
  pure progress.observations

/-!
## Tasks
-/

inductive PendingTaskKind where
  | callback
  | approval
  | inputRequest
deriving DecidableEq, Repr

structure PendingTaskIntent where
  invocationKey : String
  kind : PendingTaskKind
deriving DecidableEq, Repr

def pendingTaskKind (node : NodeRecord) : PendingTaskKind :=
  if isCallbackWaitNode node then .callback
  else if node.definition.key == "core.approval" then .approval
  else .inputRequest

def isJsonTrue : Option JsonValue -> Bool
  | some (.bool true) => true
  | _ => false

def assertPendingOutput (value : JsonValue) : EngineResult Unit := do
  assertObservation value.isRecord "task declaration output must be an object"
  assertObservation (value.hasExactFields ["pending"] ["context"])
    "observation fields are invalid"
  assertObservation (isJsonTrue (value.field? "pending")) "task declaration is not pending"

def isPendingTaskOwner (nodes : NodeIndex) (invocation : Option InvocationState) : Bool :=
  (nodeOfInvocation nodes invocation).any fun node => isPendingTaskNode node.record

def collectPendingMaterial (checkpoint : WorkflowCheckpoint) (nodes : NodeIndex)
    (pending : List OutcomeIdentity) (material : CompletedOutput) :
    EngineResult (List OutcomeIdentity) :=
  if !isPendingTaskOwner nodes (findInvocation checkpoint material.invocationKey) then
    Except.ok pending
  else do
    assertPendingOutput material.value
    pure (pending ++ [material.identity])

def taskIntent (checkpoint : WorkflowCheckpoint) (nodes : NodeIndex)
    (pending : List OutcomeIdentity) (intents : List PendingTaskIntent)
    (outcome : SuccessfulOutcome) : EngineResult (List PendingTaskIntent) :=
  match findInvocation checkpoint outcome.identity.invocationKey with
  | none => Except.ok intents
  | some owner =>
      match nodes.get? owner.nodeId with
      | none => Except.ok intents
      | some node =>
          if !isPendingTaskNode node.record then Except.ok intents
          else do
            assertObservation
              (pending.contains outcome.identity &&
                !intents.any fun intent => intent.invocationKey == owner.invocationKey)
              "task declaration evidence is missing or conflicting"
            let intent : PendingTaskIntent :=
              { invocationKey := owner.invocationKey, kind := pendingTaskKind node.record }
            pure (intents ++ [intent])

/-- A successful declaration opens a task; it cannot choose a decision path. -/
def taskDeclarationObservations (completed : List CompletedOutput)
    (outcomes : SuccessfulOutcomes) (checkpoint : WorkflowCheckpoint) (nodes : NodeIndex) :
    EngineResult (DeclaredWork PendingTaskIntent) := do
  let pending ← completed.foldlM (collectPendingMaterial checkpoint nodes) []
  let intents ← outcomes.items.foldlM (taskIntent checkpoint nodes pending) []
  let declared := intents.map PendingTaskIntent.invocationKey
  pure
    { intents := intents
      declarationInvocationKeys := declared
      observations := declared.map WorkflowObservation.taskStarted }

inductive TaskOutcomeStatus where
  | approved
  | rejected
  | submitted
  | expired
  | refused
  | canceled
deriving DecidableEq, Repr

structure PendingTaskOutcome where
  taskId : String
  invocationKey : String
  nodeId : String
  status : TaskOutcomeStatus
  branchPath : BranchPath
  iterationPath : IterationPath
deriving DecidableEq, Repr

def parseTaskOutcome (fact : PendingTaskOutcome) : EngineResult Unit := do
  assertObservation
    (isUuid fact.taskId && validInvocationKey fact.invocationKey && fact.nodeId != "")
    "task outcome identity is invalid"
  assertScopePaths fact.branchPath fact.iterationPath

def isDecision (status : TaskOutcomeStatus) : Bool :=
  status == .approved || status == .rejected || status == .submitted

def TaskOutcomeStatus.text : TaskOutcomeStatus -> String
  | .approved => "approved"
  | .rejected => "rejected"
  | .submitted => "submitted"
  | .expired => "expired"
  | .refused => "refused"
  | .canceled => "canceled"

def settledTaskOutcome (fact : PendingTaskOutcome) (node : NodeRecord) (timedOut : Bool) :
    WorkflowObservation :=
  .outcome
    { invocationKey := fact.invocationKey
      status := .succeeded
      output := some (.task fact.taskId)
      reasonCode :=
        if timedOut then some "pending_task.timed_out"
        else if isCallbackWaitNode node then some "callback.received"
        else none
      coordinatorDerived := true }

def unsettledTaskOutcome (fact : PendingTaskOutcome) (owner : InvocationState) :
    WorkflowObservation :=
  if fact.status == .canceled then
    .outcome
      { invocationKey := fact.invocationKey
        status := .canceled
        reasonCode := some "pending_task.expired"
        coordinatorDerived := true }
  else
    let reasonCode :=
      if fact.status == .refused then "pending_task.capacity_exceeded"
      else "pending_task.expired"
    .outcome
      { invocationKey := fact.invocationKey
        status := .failed
        reasonCode := some reasonCode
        failure :=
          some
            { nodeId := fact.nodeId
              invocationKey := fact.invocationKey
              attemptNumber := owner.attemptNumber
              errorKind := "human_task"
              safeErrorCode := reasonCode }
        coordinatorDerived := true }

/-- The path of the decision, or Timed out; a step without branches has none. -/
def selectedTaskPort (fact : PendingTaskOutcome) (node : NodeRecord) (timedOut : Bool) :
    Option String :=
  match configuredBranchOutputPorts node with
  | none => none
  | some _ =>
      if timedOut then some timedOutPort
      else if fact.status == .submitted then some "out"
      else some fact.status.text

def taskPortObservations (fact : PendingTaskOutcome) (node : NodeRecord) (timedOut : Bool) :
    List WorkflowObservation :=
  match selectedTaskPort fact node timedOut with
  | none => []
  | some port =>
      [.branchSelected
        { invocationKey := fact.invocationKey
          nodeId := fact.nodeId
          selectedOutputPort := port }]

def taskResultObservations (fact : PendingTaskOutcome) (owner : InvocationState)
    (node : NodeRecord) : EngineResult (List WorkflowObservation) := do
  let inputRequest := node.definition.key == "core.request_input" || isCallbackWaitNode node
  assertObservation
    (!(fact.status == .submitted && !inputRequest) &&
      !((fact.status == .approved || fact.status == .rejected) && inputRequest))
    "task result kind conflicts"
  -- silence settles like an answer when the step continues on Timed out
  let timedOut := fact.status == .expired && continuesOnExpiry node
  if timedOut || isDecision fact.status then
    pure (settledTaskOutcome fact node timedOut :: taskPortObservations fact node timedOut)
  else pure [unsettledTaskOutcome fact owner]

def sameTaskResult (output : Option OutputReference) (taskId : String) : Bool :=
  match output with
  | some (.task known) => known == taskId
  | _ => true

def settleTaskOutcome (checkpoint : WorkflowCheckpoint) (nodes : NodeIndex)
    (fact : PendingTaskOutcome) : EngineResult (List WorkflowObservation) :=
  match findInvocation checkpoint fact.invocationKey, nodes.get? fact.nodeId with
  | some owner, some node =>
      if isTerminalNodeStatus owner.status then do
        assertObservation (sameTaskResult owner.output fact.taskId)
          "task result identity conflicts"
        pure []
      else do
        assertObservation (owner.status == .waiting && owner.waitKind == some .humanTask)
          "task outcome has no durable wait"
        taskResultObservations fact owner node.record
  | _, _ =>
      if isFinishedIterationScope checkpoint.loops (some fact.branchPath)
          (some fact.iterationPath) then
        Except.ok []
      else fail .observationInvalid "task outcome invocation is unknown"

def applyTaskOutcome (checkpoint : WorkflowCheckpoint) (executable : CompiledWorkflowExecutable)
    (nodes : NodeIndex) (progress : OutcomeProgress PendingTaskOutcome)
    (fact : PendingTaskOutcome) : EngineResult (OutcomeProgress PendingTaskOutcome) := do
  parseTaskOutcome fact
  match progress.seen.find? fun other => other.invocationKey == fact.invocationKey with
  | some previous =>
      assertObservation (decide (previous = fact)) "task outcomes conflict"
      pure progress
  | none =>
      let valid ← outcomeScopeIsValid checkpoint executable nodes isPendingTaskNode fact.nodeId
        fact.invocationKey fact.branchPath fact.iterationPath
      assertObservation valid "task outcome scope is invalid"
      let settled ← settleTaskOutcome checkpoint nodes fact
      pure
        { seen := progress.seen ++ [fact]
          observations := progress.observations ++ settled }

/-- Stored task facts settle only their exact waiting invocation. -/
def taskOutcomeObservations (facts : List PendingTaskOutcome) (checkpoint : WorkflowCheckpoint)
    (executable : CompiledWorkflowExecutable) (nodes : NodeIndex) :
    EngineResult (List WorkflowObservation) := do
  let progress ← facts.foldlM (applyTaskOutcome checkpoint executable nodes) {}
  pure progress.observations

end Engine
end Pertexo
