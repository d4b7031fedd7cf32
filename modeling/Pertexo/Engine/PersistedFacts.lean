import Pertexo.Engine.Plan

/-!
# Persisted facts

## Facts

A run stores numbered facts about its attempts, and unnumbered facts about
failures, due waits and the deadline.
-/

namespace Pertexo
namespace Engine

open Library
open Values

structure AttemptReference where
  invocationKey : String
  attemptId : String
  attemptNumber : Nat
deriving DecidableEq, Repr

inductive CursorEventName where
  | nodeStarted
  | nodeProgress
deriving DecidableEq, Repr

inductive WaitEventName where
  | nodeWaiting
  | nodeRetryScheduled
deriving DecidableEq, Repr

inductive SequencedDetail where
  | outcome (attempt : AttemptReference) (status : NodeStatus)
      (output : Option OutputReference) (reasonCode : Option String)
  | cancelRequested
  | cursorOnly (eventName : CursorEventName) (attempt : AttemptReference)
  | wait (eventName : WaitEventName) (attempt : AttemptReference) (resumeAt : Timestamp)
      (waitKind : WaitKind) (output : Option OutputReference)
deriving DecidableEq, Repr

structure SequencedFact where
  sequence : Nat
  occurredAt : Timestamp
  detail : SequencedDetail
deriving DecidableEq, Repr

inductive ExecutorFailureKind where
  | failed
  | canceled
  | retry
  | outcomeUnknown
deriving DecidableEq, Repr

inductive ExecutorErrorKind where
  | authentication
  | canceled
  | configuration
  | internal
  | network
  | provider
  | rateLimit
  | timeout
deriving DecidableEq, Repr

structure AttemptFailure where
  occurredAt : Timestamp
  attempt : AttemptReference
  failureKind : ExecutorFailureKind
  errorKind : ExecutorErrorKind
  possiblyDispatched : Bool
  safeErrorCode : String
  minimumRetryDelayMillis : Option Nat := none
deriving DecidableEq, Repr

inductive PersistedFact where
  | sequenced (fact : SequencedFact)
  | attemptFailure (failure : AttemptFailure)
  | dueAt (due : DueResumption)
  | deadlineExpired (occurredAt : Timestamp)
deriving DecidableEq, Repr

/-!
## Field checks
-/

def assertObservation (condition : Bool) (message : String) : EngineResult Unit :=
  assertThat condition .observationInvalid message

/-- The last instant a date can hold. -/
def maximumInstant : Nat := 8640000000000000

def maximumRetryDelayMillis : Nat := 60000

def validInvocationKey (invocationKey : String) : Bool :=
  invocationKey != "" && utf16Length invocationKey <= invocationKeyLength

def validAttempt (attempt : AttemptReference) : Bool :=
  isUuid attempt.attemptId && isInteger attempt.attemptNumber && 0 < attempt.attemptNumber

def isSafeErrorCodeChar (c : Char) : Bool :=
  c.isAlphanum || "._:-".toList.contains c

def isSafeExecutorErrorCode (code : String) : Bool :=
  match code.toList with
  | [] => false
  | first :: rest =>
      first.isAlphanum && rest.all isSafeErrorCodeChar && rest.length <= 127

def isOutcomeStatus (status : NodeStatus) : Bool :=
  status == .succeeded || isLoopTerminalStatus status

def assertOutcomeOutput (attemptId : String) : Option OutputReference -> EngineResult Unit
  | none => Except.ok ()
  | some (.inline referenceAttemptId) =>
      assertObservation (isUuid referenceAttemptId && referenceAttemptId == attemptId)
        "inline output must reference the completing attempt"
  | some (.artifact artifactId) =>
      assertObservation (isUuid artifactId) "artifact output is invalid"
  | some _ => fail .observationInvalid "output reference kind is invalid"

def assertSequencedDetail : SequencedDetail -> EngineResult Unit
  | .cancelRequested => Except.ok ()
  | .cursorOnly _ attempt =>
      assertObservation (validInvocationKey attempt.invocationKey && validAttempt attempt)
        "cursor event is invalid"
  | .wait _ attempt resumeAt waitKind output =>
      assertObservation
        (validInvocationKey attempt.invocationKey && validAttempt attempt &&
          resumeAt <= maximumInstant &&
          ((waitKind == .nodeWait && output == some (.inline attempt.attemptId)) ||
            (waitKind == .retryBackoff && output.isNone)))
        "wait observation is invalid"
  | .outcome attempt status output reasonCode => do
      assertObservation (validAttempt attempt && isOutcomeStatus status)
        "outcome observation is invalid"
      assertObservation
        (reasonCode.all fun reason => reason != "" && utf16Length reason <= 128)
        "reasonCode is invalid"
      assertOutcomeOutput attempt.attemptId output

def assertAttemptFailure (failure : AttemptFailure) : EngineResult Unit :=
  assertObservation
    (failure.occurredAt <= maximumInstant && validAttempt failure.attempt &&
      isSafeExecutorErrorCode failure.safeErrorCode &&
      failure.minimumRetryDelayMillis.all fun delay => delay <= maximumRetryDelayMillis)
    "attempt failure is invalid"

def assertPersistedFact : PersistedFact -> EngineResult Unit
  | .attemptFailure failure => assertAttemptFailure failure
  | .deadlineExpired occurredAt =>
      assertObservation (occurredAt <= maximumInstant) "deadline timestamp is invalid"
  | .dueAt due =>
      assertObservation (due.occurredAt <= maximumInstant && validInvocationKey due.invocationKey)
        "due observation is invalid"
  | .sequenced fact => do
      assertObservation
        (isInteger fact.sequence && 0 < fact.sequence && fact.occurredAt <= maximumInstant)
        "observation cursor is invalid"
      assertSequencedDetail fact.detail

/-!
## Partition
-/

structure FactPartition where
  deadlineExpiration : Option Timestamp := none
  dueResumptions : List DueResumption := []
  attemptFailures : List AttemptFailure := []
  sequenced : List SequencedFact := []

def partitionFact (partition : FactPartition) : PersistedFact -> EngineResult FactPartition
  | .attemptFailure failure => do
      assertObservation
        (!partition.attemptFailures.any fun other =>
          other.attempt.invocationKey == failure.attempt.invocationKey ||
            other.attempt.attemptId == failure.attempt.attemptId)
        "attempt failures conflict"
      pure { partition with attemptFailures := partition.attemptFailures ++ [failure] }
  | .dueAt due =>
      match partition.dueResumptions.find? fun other =>
          other.invocationKey == due.invocationKey with
      | none =>
          Except.ok { partition with dueResumptions := partition.dueResumptions ++ [due] }
      | some previous => do
          assertObservation (previous.occurredAt == due.occurredAt) "due observation conflicts"
          pure partition
  | .sequenced fact =>
      Except.ok { partition with sequenced := partition.sequenced ++ [fact] }
  | .deadlineExpired occurredAt => do
      assertObservation
        (partition.deadlineExpiration.all fun previous => previous == occurredAt)
        "deadline observation conflicts"
      pure { partition with deadlineExpiration := some occurredAt }

def findInvocation (checkpoint : WorkflowCheckpoint) (invocationKey : String) :
    Option InvocationState :=
  checkpoint.invocations.find? fun invocation => invocation.invocationKey == invocationKey

def assertDueResumption (checkpoint : WorkflowCheckpoint) (due : DueResumption) :
    EngineResult Unit :=
  match findInvocation checkpoint due.invocationKey with
  | none => fail .observationInvalid "due invocation is unknown"
  | some invocation =>
      if invocation.status == .waiting then
        assertObservation
          (invocation.resumeAt.any fun resumeAt => resumeAt <= due.occurredAt)
          "due observation is early"
      else
        assertObservation (invocation.status == .ready || invocation.status == .running)
          "due invocation is not resumable"

/-!
## The window of numbered facts

Facts below the cursor must agree with the checkpoint; the other facts continue
the sequence without a gap.
-/

def staleOutcomeMatches (checkpoint : WorkflowCheckpoint) (attempt : AttemptReference)
    (status : NodeStatus) (output : Option OutputReference) : Bool :=
  let declaresLoop := checkpoint.loops.any fun loop =>
    loop.controlInvocationKey == attempt.invocationKey
  (findInvocation checkpoint attempt.invocationKey).any fun invocation =>
    invocation.attemptNumber == attempt.attemptNumber &&
      (invocation.status == status ||
        (status == .succeeded && declaresLoop &&
          (invocation.status == .waiting || invocation.status == .succeeded))) &&
      sameOutputReference invocation.output output

def staleFactMatchesCheckpoint (checkpoint : WorkflowCheckpoint) (fact : SequencedFact) : Bool :=
  match fact.detail with
  | .cancelRequested => checkpoint.cancelRequested
  | .cursorOnly _ attempt =>
      checkpoint.invocations.any fun invocation =>
        invocation.invocationKey == attempt.invocationKey &&
          invocation.attemptNumber == attempt.attemptNumber
  | .wait _ attempt resumeAt waitKind _ =>
      (findInvocation checkpoint attempt.invocationKey).any fun invocation =>
        invocation.status == .waiting && invocation.attemptNumber == attempt.attemptNumber &&
          invocation.resumeAt == some resumeAt && invocation.waitKind == some waitKind
  | .outcome attempt status output _ => staleOutcomeMatches checkpoint attempt status output

/-- A repeated sequence number must repeat the whole fact. -/
def addUniqueFact (unique : List SequencedFact) (fact : SequencedFact) :
    EngineResult (List SequencedFact) :=
  match unique.getLast? with
  | none => Except.ok [fact]
  | some previous =>
      if fact.sequence < previous.sequence then
        fail .observationInvalid "observations are out of order"
      else if previous.sequence == fact.sequence then do
        assertObservation (decide (previous = fact)) "observation sequence conflicts"
        pure unique
      else Except.ok (unique ++ [fact])

def addFreshFact (checkpoint : WorkflowCheckpoint) (fresh : List SequencedFact)
    (fact : SequencedFact) : EngineResult (List SequencedFact) :=
  if fact.sequence < checkpoint.nextEventSequence then do
    assertObservation (staleFactMatchesCheckpoint checkpoint fact) "stale observation conflicts"
    pure fresh
  else do
    assertObservation (fact.sequence == checkpoint.nextEventSequence + fresh.length)
      "observation sequence has a gap"
    pure (fresh ++ [fact])

def SequencedDetail.attempt? : SequencedDetail -> Option AttemptReference
  | .outcome attempt _ _ _ => some attempt
  | .cancelRequested => none
  | .cursorOnly _ attempt => some attempt
  | .wait _ attempt _ _ _ => some attempt

def assertCurrentAttempt (checkpoint : WorkflowCheckpoint) (fact : SequencedFact) :
    EngineResult Unit :=
  match fact.detail.attempt? with
  | none => Except.ok ()
  | some attempt =>
      assertObservation
        ((findInvocation checkpoint attempt.invocationKey).any fun invocation =>
          invocation.attemptNumber == attempt.attemptNumber)
        "observation attempt is stale"

def freshSequencedObservations (checkpoint : WorkflowCheckpoint)
    (sequenced : List SequencedFact) : EngineResult (List SequencedFact) := do
  let unique ← sequenced.foldlM addUniqueFact []
  let fresh ← unique.foldlM (addFreshFact checkpoint) []
  fresh.forM (assertCurrentAttempt checkpoint)
  pure fresh

def SequencedFact.toObservation (fact : SequencedFact) : WorkflowObservation :=
  match fact.detail with
  | .cancelRequested => .cancelRequested
  | .cursorOnly _ _ => .cursorOnly
  | .wait _ attempt resumeAt waitKind output =>
      .wait
        { invocationKey := attempt.invocationKey
          resumeAt := resumeAt
          waitKind := waitKind
          output := output }
  | .outcome attempt status output reasonCode =>
      .outcome
        { invocationKey := attempt.invocationKey
          status := status
          output := output
          reasonCode := reasonCode }

structure ParsedPersistedObservations where
  facts : List PersistedFact
  fresh : List SequencedFact
  cursor : PersistedObservationCursor
  dueResumptions : List DueResumption
  attemptFailures : List AttemptFailure
  deadlineExpiration : Option Timestamp

def compareDueResumptions (left right : DueResumption) : Ordering :=
  (compareOrdinal left.invocationKey right.invocationKey).then
    (compare left.occurredAt right.occurredAt)

def parsePersistedObservations (facts : List PersistedFact) (checkpoint : WorkflowCheckpoint) :
    EngineResult ParsedPersistedObservations := do
  facts.forM assertPersistedFact
  let partition ← facts.foldlM partitionFact {}
  let dueResumptions := sortWith compareDueResumptions partition.dueResumptions
  dueResumptions.forM (assertDueResumption checkpoint)
  let fresh ← freshSequencedObservations checkpoint partition.sequenced
  pure
    { facts := facts
      fresh := fresh
      cursor :=
        { expectedNextEventSequence := checkpoint.nextEventSequence
          consumedThroughEventSequence := checkpoint.nextEventSequence + fresh.length - 1 }
      dueResumptions := dueResumptions
      attemptFailures := partition.attemptFailures
      deadlineExpiration := partition.deadlineExpiration }

end Engine
end Pertexo
