import Pertexo.Library.Keyed
import Pertexo.Values.Text

/-!
# Execution state of a workflow run

## Errors

The engine refuses its input with a code and a message.
-/

namespace Pertexo
namespace Engine

open Library
open Values

inductive EngineErrorCode where
  | checkpointInvalid
  | graphInvalid
  | executableInvalid
  | observationInvalid
  | attemptInvalid
  | workflowIdentityInvalid
  | transitionInvalid
  | joinInvalid
  | loopLimitExceeded
  | loopStateInvalid
deriving DecidableEq, Repr

structure EngineError where
  code : EngineErrorCode
  message : String
deriving DecidableEq, Repr

abbrev EngineResult (α : Type) :=
  Except EngineError α

def fail (code : EngineErrorCode) (message : String) : EngineResult α :=
  Except.error { code := code, message := message }

def assertThat (condition : Bool) (code : EngineErrorCode) (message : String) :
    EngineResult Unit :=
  if condition then Except.ok () else fail code message

/-!
## Statuses
-/

inductive NodeStatus where
  | pending
  | ready
  | running
  | waiting
  | succeeded
  | failed
  | skipped
  | canceled
  | timedOut
  | outcomeUnknown
deriving DecidableEq, Repr

inductive RunStatus where
  | queued
  | running
  | waiting
  | succeeded
  | failed
  | canceled
  | timedOut
  | outcomeUnknown
deriving DecidableEq, Repr

inductive SideEffectClass where
  | safe
  | idempotentWithKey
  | unsafeEffect
deriving DecidableEq, Repr

inductive WaitKind where
  | nodeWait
  | retryBackoff
  | workflowCall
  | humanTask
deriving DecidableEq, Repr

inductive AdmissionKind where
  | execute
  | retry
  | waitResume
deriving DecidableEq, Repr

inductive BranchDisposition where
  | pending
  | arrived
  | skipped
  | missing
  | failed
  | canceled
deriving DecidableEq, Repr

/-- Instants are milliseconds since the epoch of a canonical UTC timestamp. -/
abbrev Timestamp := Nat

/-!
## Scopes, outputs and invocations
-/

inductive OutputReference where
  | inline (attemptId : String)
  | artifact (artifactId : String)
  | reused (nodeRunId : String)
  | call (callId : String)
  | task (taskId : String)
deriving DecidableEq, Repr

structure BranchScopePart where
  nodeId : String
  outputPort : String
deriving DecidableEq, Repr

structure IterationScopePart where
  loopNodeId : String
  ordinal : Nat
deriving DecidableEq, Repr

abbrev BranchPath := List BranchScopePart
abbrev IterationPath := List IterationScopePart

inductive HandlingDisposition where
  | pending
  | handled
deriving DecidableEq, Repr

structure FailureHandling where
  sinkInvocationKey : String
  disposition : HandlingDisposition
deriving DecidableEq, Repr

structure InvocationState where
  invocationKey : String
  nodeId : String
  status : NodeStatus
  attemptNumber : Nat
  waitKind : Option WaitKind := none
  resumeAt : Option Timestamp := none
  output : Option OutputReference := none
  failureHandling : Option FailureHandling := none
  branchPath : Option BranchPath := none
  iterationPath : Option IterationPath := none
deriving DecidableEq, Repr

inductive JoinPolicy where
  | all
  | any
  | count (count : Nat)
deriving DecidableEq, Repr

structure BranchLedgerEntry where
  branchId : String
  disposition : BranchDisposition
  output : Option OutputReference := none
deriving DecidableEq, Repr

inductive UnsatisfiedReason where
  | branchFailed
  | branchCanceled
  | insufficientArrivals
deriving DecidableEq, Repr

structure JoinState where
  joinInvocationKey : String
  joinId : String
  branchPath : BranchPath
  iterationPath : IterationPath
  policy : JoinPolicy
  ledger : List BranchLedgerEntry
  selectedBranchIds : Option (List String) := none
  unsatisfiedReasonCode : Option UnsatisfiedReason := none
deriving DecidableEq, Repr

structure LoopState where
  controlInvocationKey : String
  loopId : String
  branchPath : BranchPath
  iterationPath : IterationPath
  bodyRootNodeIds : List String
  bodySinkNodeId : String
  collection : OutputReference
  collectionChecksum : String
  collectionSize : Nat
  maxConcurrency : Nat
  maxIterations : Nat
  nextOrdinal : Nat
  /-- All ordinals below this frontier have settled and released their data. -/
  completedPrefix : Nat
  activeOrdinals : List Nat
  terminalOrdinals : List Nat
  terminalStatus : Option NodeStatus := none
deriving DecidableEq, Repr

structure BranchSelection where
  invocationKey : String
  nodeId : String
  selectedOutputPort : String
deriving DecidableEq, Repr

structure WorkflowCheckpoint where
  workflowVersionId : String
  revision : Nat
  runStatus : RunStatus
  nextEventSequence : Nat
  readySet : List String
  admittedInvocationKeys : List String
  invocations : List InvocationState
  joins : List JoinState
  loops : List LoopState
  remainingIterationBudget : Nat
  cancelRequested : Bool
  deadlineExpired : Bool
  branchSelections : List BranchSelection
  initialIterationBudget : Option Nat := none
  /-- Budget reserved by nested declarations whose scopes were pruned. -/
  retiredIterationBudget : Option Nat := none
deriving DecidableEq, Repr

/-!
## Observations

The facts the transition engine consumes, after the coordinator has merged
the persisted facts with the facts it derives.
-/

structure WorkflowNodeFailureValue where
  nodeId : String
  invocationKey : String
  attemptNumber : Nat
  errorKind : String
  safeErrorCode : String
deriving DecidableEq, Repr

structure OutcomeObservation where
  invocationKey : String
  status : NodeStatus
  output : Option OutputReference := none
  reasonCode : Option String := none
  failure : Option WorkflowNodeFailureValue := none
  coordinatorDerived : Bool := false
deriving DecidableEq, Repr

structure WaitObservation where
  invocationKey : String
  resumeAt : Timestamp
  waitKind : WaitKind
  output : Option OutputReference := none
  coordinatorDerived : Bool := false
deriving DecidableEq, Repr

structure BranchSelectedObservation where
  invocationKey : String
  nodeId : String
  selectedOutputPort : String
deriving DecidableEq, Repr

structure JoinDeclaredObservation where
  joinId : String
  joinInvocationKey : String
  branchPath : BranchPath
  iterationPath : IterationPath
  policy : JoinPolicy
  branchIds : List String
deriving DecidableEq, Repr

structure BranchDispositionObservation where
  joinId : String
  joinInvocationKey : String
  branch : BranchLedgerEntry
deriving DecidableEq, Repr

structure LoopStartedObservation where
  loopId : String
  controlInvocationKey : String
  branchPath : BranchPath
  iterationPath : IterationPath
  bodyRootNodeIds : List String
  bodySinkNodeId : String
  collection : OutputReference
  collectionChecksum : String
  collectionSize : Nat
  maxIterations : Nat
  maxConcurrency : Nat
deriving DecidableEq, Repr

structure LoopIterationCompletedObservation where
  loopId : String
  controlInvocationKey : String
  invocationKey : String
  ordinal : Nat
  status : NodeStatus
  output : Option OutputReference := none
  reasonCode : Option String := none
deriving DecidableEq, Repr

inductive WorkflowObservation where
  | cursorOnly
  | cancelRequested
  | outcome (fact : OutcomeObservation)
  | wait (fact : WaitObservation)
  | callStarted (invocationKey : String)
  | taskStarted (invocationKey : String)
  | branchSelected (fact : BranchSelectedObservation)
  | joinDeclared (fact : JoinDeclaredObservation)
  | branchDisposition (fact : BranchDispositionObservation)
  | loopStarted (fact : LoopStartedObservation)
  | loopIterationCompleted (fact : LoopIterationCompletedObservation)
deriving DecidableEq, Repr

/-!
## Plans
-/

inductive EngineEventName where
  | runStarted
  | runWaiting
  | runTerminal (status : RunStatus)
  | nodeReady
  | nodeWaiting
  | nodeRetryScheduled
  | nodeSucceeded
  | nodeFailureRouted
  | nodeFailureHandled
  | nodeFailed
  | nodeSkipped
  | nodeCanceled
  | nodeTimedOut
  | nodeOutcomeUnknown
deriving DecidableEq, Repr

structure EngineEventDraft where
  name : EngineEventName
  occurredAt : Timestamp
  invocationKey : Option String := none
  nodeId : Option String := none
  attemptNumber : Option Nat := none
  reasonCode : Option String := none
  dueAt : Option Timestamp := none
deriving DecidableEq, Repr

structure EngineEventPlan where
  sequence : Nat
  draft : EngineEventDraft
deriving DecidableEq, Repr

structure AttemptAdmissionPlan where
  invocationKey : String
  nodeId : String
  attemptNumber : Nat
  admissionKind : AdmissionKind
  sideEffectClass : SideEffectClass
  branchPath : Option BranchPath
  iterationPath : Option IterationPath
deriving DecidableEq, Repr

structure NodeRunAdmissionPlan where
  invocationKey : String
  nodeId : String
  sideEffectClass : SideEffectClass
  branchPath : Option BranchPath
  iterationPath : Option IterationPath
deriving DecidableEq, Repr

structure FailureValuePlan where
  value : WorkflowNodeFailureValue
  entryInvocationKey : String
deriving DecidableEq, Repr

structure WorkflowTransitionPlan where
  failureValues : List FailureValuePlan
  expectedRevision : Nat
  expectedNextEventSequence : Nat
  consumedThroughEventSequence : Nat
  checkpoint : WorkflowCheckpoint
  events : List EngineEventPlan
  nodeRunAdmissions : List NodeRunAdmissionPlan
  attempts : List AttemptAdmissionPlan
  /-- Final records needed by the writers of this commit, never stored in the checkpoint. -/
  prunedInvocations : List InvocationState
  /-- A durable wakeup is needed for scheduler work with no admitted attempt. -/
  immediateContinuation : Bool
deriving DecidableEq, Repr

/-!
## Scope comparisons
-/

def sameIterationPath (left right : Option IterationPath) : Bool :=
  left.getD [] == right.getD []

def iterationPathHasPrefix (path : Option IterationPath) (pathPrefix : IterationPath) :
    Bool :=
  pathPrefix.isPrefixOf (path.getD [])

def branchPathHasPrefix (path pathPrefix : Option BranchPath) : Bool :=
  (pathPrefix.getD []).isPrefixOf (path.getD [])

/-- Two references agree when both are absent or both name the same output. -/
def sameOutputReference (left right : Option OutputReference) : Bool :=
  match left, right with
  | none, none => true
  | some (.inline a), some (.inline b) => a == b
  | some (.artifact a), some (.artifact b) => a == b
  | some (.task a), some (.task b) => a == b
  | some (.call a), some (.call b) => a == b
  | some (.reused a), some (.reused b) => a == b
  | _, _ => false

theorem sameOutputReference_iff (left right : Option OutputReference) :
    sameOutputReference left right = true ↔ left = right := by
  rcases left with _ | (_ | _ | _ | _ | _) <;>
    rcases right with _ | (_ | _ | _ | _ | _) <;>
    simp [sameOutputReference]

theorem sameIterationPath_iff (left right : Option IterationPath) :
    sameIterationPath left right = true ↔ left.getD [] = right.getD [] := by
  simp [sameIterationPath]

theorem iterationPathHasPrefix_iff (path : Option IterationPath)
    (pathPrefix : IterationPath) :
    iterationPathHasPrefix path pathPrefix = true ↔ pathPrefix <+: path.getD [] := by
  simp [iterationPathHasPrefix]

theorem branchPathHasPrefix_iff (path pathPrefix : Option BranchPath) :
    branchPathHasPrefix path pathPrefix = true ↔
      pathPrefix.getD [] <+: path.getD [] := by
  simp [branchPathHasPrefix]

/-!
## Invocation keys

The key of an invocation joins the version, the step and both scope paths.
-/

def invocationKeyLength : Nat := 256

def encodedBranchPath (branchPath : BranchPath) : List String :=
  branchPath.map fun part => part.nodeId ++ ":" ++ part.outputPort

def encodedIterationPath (iterationPath : IterationPath) : List String :=
  iterationPath.map fun part => part.loopNodeId ++ ":" ++ toString part.ordinal

def rawInvocationKey (workflowVersionId nodeId : String) (branchPath : List String)
    (iterationPath : IterationPath) : String :=
  encodeURIComponent workflowVersionId ++ "|" ++ encodeURIComponent nodeId ++ "|b:" ++
    encodeURIComponent ("/".intercalate branchPath) ++ "|i:" ++
    encodeURIComponent ("/".intercalate (encodedIterationPath iterationPath))

def invocationKey (workflowVersionId nodeId : String) (branchPath : List String)
    (iterationPath : IterationPath) : EngineResult String :=
  let key := rawInvocationKey workflowVersionId nodeId branchPath iterationPath
  if utf16Length key > invocationKeyLength then
    fail .workflowIdentityInvalid
      ("Step \"" ++ nodeId ++
        "\" exceeds the 256-character execution identity limit. " ++
        "Shorten step IDs or reduce branch and loop nesting.")
  else Except.ok key

/-- The key of a step in the scope of two optional paths. -/
def scopedInvocationKey (workflowVersionId nodeId : String)
    (branchPath : Option BranchPath) (iterationPath : Option IterationPath) :
    EngineResult String :=
  invocationKey workflowVersionId nodeId (encodedBranchPath (branchPath.getD []))
    (iterationPath.getD [])

/-!
## Names of statuses
-/

def NodeStatus.text : NodeStatus -> String
  | .pending => "pending"
  | .ready => "ready"
  | .running => "running"
  | .waiting => "waiting"
  | .succeeded => "succeeded"
  | .failed => "failed"
  | .skipped => "skipped"
  | .canceled => "canceled"
  | .timedOut => "timed_out"
  | .outcomeUnknown => "outcome_unknown"

def RunStatus.text : RunStatus -> String
  | .queued => "queued"
  | .running => "running"
  | .waiting => "waiting"
  | .succeeded => "succeeded"
  | .failed => "failed"
  | .canceled => "canceled"
  | .timedOut => "timed_out"
  | .outcomeUnknown => "outcome_unknown"

def WaitKind.text : WaitKind -> String
  | .nodeWait => "node_wait"
  | .retryBackoff => "retry_backoff"
  | .workflowCall => "workflow_call"
  | .humanTask => "human_task"

/-!
## Allowed transitions
-/

def runTransitions : RunStatus -> List RunStatus
  | .queued => [.running, .canceled, .timedOut]
  | .running => [.waiting, .succeeded, .failed, .canceled, .timedOut, .outcomeUnknown]
  | .waiting => [.running, .succeeded, .failed, .canceled, .timedOut, .outcomeUnknown]
  | .succeeded | .failed | .canceled | .timedOut | .outcomeUnknown => []

def nodeTransitions : NodeStatus -> List NodeStatus
  | .pending => [.ready, .skipped, .canceled]
  | .ready => [.running, .skipped, .canceled]
  | .running => [.waiting, .succeeded, .failed, .canceled, .timedOut, .outcomeUnknown]
  | .waiting => [.ready, .succeeded, .failed, .canceled, .timedOut, .outcomeUnknown]
  | .succeeded | .failed | .skipped | .canceled | .timedOut | .outcomeUnknown => []

def assertRunTransition (source target : RunStatus) : EngineResult Unit :=
  assertThat ((runTransitions source).contains target) .transitionInvalid
    ("run cannot transition " ++ source.text ++ " -> " ++ target.text)

def assertNodeTransition (source target : NodeStatus) : EngineResult Unit :=
  assertThat ((nodeTransitions source).contains target) .transitionInvalid
    ("node cannot transition " ++ source.text ++ " -> " ++ target.text)

def isTerminalNodeStatus : NodeStatus -> Bool
  | .succeeded | .failed | .skipped | .canceled | .timedOut | .outcomeUnknown => true
  | .pending | .ready | .running | .waiting => false

def nodeEventName : NodeStatus -> Option EngineEventName
  | .pending | .running => none
  | .ready => some .nodeReady
  | .waiting => some .nodeWaiting
  | .succeeded => some .nodeSucceeded
  | .failed => some .nodeFailed
  | .skipped => some .nodeSkipped
  | .canceled => some .nodeCanceled
  | .timedOut => some .nodeTimedOut
  | .outcomeUnknown => some .nodeOutcomeUnknown

@[simp] theorem assertThat_eq_ok_iff {condition : Bool} {code : EngineErrorCode}
    {message : String} {u : Unit} :
    assertThat condition code message = Except.ok u ↔ condition = true := by
  cases condition with
  | false => simp [assertThat, fail]
  | true => simp [assertThat]

@[simp] theorem fail_ne_ok {α : Type} {code : EngineErrorCode} {message : String} {a : α} :
    fail code message ≠ Except.ok a := by
  simp [fail]

theorem assertNodeTransition_eq_ok_iff {source target : NodeStatus} {u : Unit} :
    assertNodeTransition source target = Except.ok u ↔
      target ∈ nodeTransitions source := by
  simp [assertNodeTransition]

theorem assertRunTransition_eq_ok_iff {source target : RunStatus} {u : Unit} :
    assertRunTransition source target = Except.ok u ↔
      target ∈ runTransitions source := by
  simp [assertRunTransition]

theorem not_terminal_of_nodeTransition {source target : NodeStatus}
    (h : target ∈ nodeTransitions source) : isTerminalNodeStatus source = false := by
  cases source <;> simp_all [nodeTransitions, isTerminalNodeStatus]

/-!
## Changing the status of an invocation
-/

def InvocationState.withStatus (invocation : InvocationState) (status : NodeStatus) :
    InvocationState :=
  { invocation with status := status, waitKind := none, resumeAt := none }

/--
A timed wait made ready again keeps its wait kind, so its next attempt is
admitted as a resume or a retry.
-/
def resumedInvocation (invocation : InvocationState) : EngineResult InvocationState :=
  match invocation.waitKind with
  | some .workflowCall =>
      fail .transitionInvalid "a workflow_call wait cannot resume on a timer"
  | some .humanTask =>
      fail .transitionInvalid "a human_task wait cannot resume on a timer"
  | waitKind =>
      Except.ok { invocation.withStatus .ready with waitKind := waitKind }

end Engine
end Pertexo
