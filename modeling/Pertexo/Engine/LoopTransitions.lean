import Pertexo.Engine.Transition

/-!
# Loop starts and iteration completions
-/

namespace Pertexo
namespace Engine

open Library

def failLoopControl (state : WorkflowTransition) (controlInvocationKey : String)
    (occurredAt : Timestamp) : EngineResult WorkflowTransition :=
  match state.invocations.get? controlInvocationKey with
  | none => fail .loopStateInvalid "For Each control is not running"
  | some control =>
      if control.status != .running then
        fail .loopStateInvalid "For Each control is not running"
      else
        let failed := { control with status := .failed }
        Except.ok <|
          (state.setInvocation failed).addDraft
            (transitionEvent .nodeFailed occurredAt (some failed) (some "loop_limit_exceeded"))

def declareLoop (state : WorkflowTransition) (observation : LoopStartedObservation)
    (declared : LoopState) : EngineResult WorkflowTransition :=
  let reserved :=
    { state.setLoop declared with
      remainingIterationBudget := state.remainingIterationBudget - declared.collectionSize }
  match state.invocations.get? observation.controlInvocationKey with
  | none =>
      Except.ok <| reserved.materialize
        { invocationKey := observation.controlInvocationKey
          nodeId := observation.loopId
          status := .pending
          attemptNumber := 0 }
  | some control =>
      if control.status != .running then
        fail .loopStateInvalid "For Each control is not running"
      else do
        assertNodeTransition control.status .waiting
        pure <| reserved.setInvocation
          { control with status := .waiting, output := some observation.collection }

def applyLoopStart (state : WorkflowTransition) (observation : LoopStartedObservation)
    (occurredAt : Timestamp) : EngineResult WorkflowTransition :=
  if state.cancelRequested ||
      isFinishedIterationScope state.loops.items (some observation.branchPath)
        (some observation.iterationPath) then
    Except.ok state
  else
    match state.loops.get? observation.controlInvocationKey with
    | some existingLoop => do
        let declared ← createLoopState observation
          (max state.remainingIterationBudget observation.collectionSize)
        assertThat (sameLoopDeclaration existingLoop declared) .loopStateInvalid
          ("loop " ++ observation.loopId ++ " conflicts with its declaration")
        pure state
    | none =>
        match createLoopState observation state.remainingIterationBudget with
        | Except.error error =>
            if error.code != .loopLimitExceeded then Except.error error
            else failLoopControl state observation.controlInvocationKey occurredAt
        | Except.ok declared => declareLoop state observation declared

/-- The compact frontier owns the replay of a completion after pruning. -/
def isRetiredCompletion (observation : LoopIterationCompletedObservation) (loop : LoopState)
    (iteration : Option InvocationState) : Bool :=
  observation.ordinal < loop.completedPrefix ||
    (loop.terminalOrdinals.contains observation.ordinal && iteration.isNone)

def settlesNormally (status : NodeStatus) : Bool :=
  status == .succeeded || status == .skipped

def stopFailedLoopControl (state : WorkflowTransition) (loop : LoopState)
    (observation : LoopIterationCompletedObservation) (occurredAt : Timestamp) :
    EngineResult WorkflowTransition :=
  if !settlesNormally observation.status && loop.terminalStatus.isNone then
    match state.invocations.get? loop.controlInvocationKey with
    | none =>
        fail .loopStateInvalid "For Each control cannot accept its first terminal cause"
    | some control =>
        if isTerminalNodeStatus control.status then
          fail .loopStateInvalid "For Each control cannot accept its first terminal cause"
        else do
          assertNodeTransition control.status observation.status
          let stopped := control.withStatus observation.status
          pure <| (state.setInvocation stopped).addDraft <|
            transitionEvent ((nodeEventName observation.status).getD .nodeFailed) occurredAt
              (some stopped) observation.reasonCode
  else Except.ok state

def assertIterationSettles (iteration : InvocationState) (status : NodeStatus) :
    EngineResult Unit :=
  if isTerminalNodeStatus iteration.status && iteration.status == status then Except.ok ()
  else assertNodeTransition iteration.status status

def completeIteration (state : WorkflowTransition) (loop : LoopState)
    (iteration : InvocationState) (observation : LoopIterationCompletedObservation)
    (occurredAt : Timestamp) : EngineResult WorkflowTransition := do
  assertIterationSettles iteration observation.status
  let completedInvocation :=
    { iteration.withStatus observation.status with
      output := observation.output <|> iteration.output }
  let completedLoop ← completeLoopIteration loop observation.ordinal
  let settledLoop :=
    if settlesNormally observation.status then completedLoop
    else
      { completedLoop with
        terminalStatus := loop.terminalStatus <|> some observation.status }
  let stopped ← stopFailedLoopControl
    ((state.setInvocation completedInvocation).setLoop settledLoop) loop observation occurredAt
  assertThat (nodeEventName observation.status).isSome .checkpointInvalid
    ("missing event mapping for " ++ observation.status.text)
  pure stopped

def applyLoopCompletion (state : WorkflowTransition)
    (observation : LoopIterationCompletedObservation) (occurredAt : Timestamp) :
    EngineResult WorkflowTransition :=
  match state.loops.get? observation.controlInvocationKey with
  | none =>
      fail .loopStateInvalid ("loop " ++ observation.loopId ++ " is not declared")
  | some loop =>
      if loop.loopId != observation.loopId then
        fail .loopStateInvalid ("loop " ++ observation.loopId ++ " is not declared")
      else if isRetiredCompletion observation loop
          (state.invocations.get? observation.invocationKey) then
        Except.ok state
      else
        match state.invocations.get? observation.invocationKey with
        | none =>
            fail .loopStateInvalid
              ("loop sink " ++ observation.invocationKey ++ " has no invocation")
        | some iteration =>
            if loop.terminalOrdinals.contains observation.ordinal then
              if iteration.status == observation.status &&
                  sameOutputReference iteration.output observation.output then
                Except.ok state
              else do
                assertNodeTransition iteration.status observation.status
                pure state
            else completeIteration state loop iteration observation occurredAt

/-!
## Stops

A cancellation or an expired deadline settles the loops from the innermost
outwards, and then every invocation that has no attempt in flight.
-/

open Values

def isStoppableStatus (status : NodeStatus) : Bool :=
  status == .pending || status == .ready || status == .waiting

def requestedStopStatus (state : WorkflowTransition) (status : NodeStatus) :
    Option NodeStatus :=
  if state.cancelRequested then some .canceled
  else if !state.deadlineExpired then none
  else if status == .waiting then some .timedOut
  else some .canceled

def requestedControlStop (state : WorkflowTransition) : Option NodeStatus :=
  if state.cancelRequested then some .canceled
  else if state.deadlineExpired then some .timedOut
  else none

def stopTime (state : WorkflowTransition) (status : NodeStatus) (occurredAt : Timestamp) :
    Timestamp :=
  if status == .timedOut then state.deadlineOccurredAt.getD occurredAt else occurredAt

def stoppedControlEvent (status : NodeStatus) : EngineEventName :=
  match status with
  | .timedOut => .nodeTimedOut
  | .canceled => .nodeCanceled
  | other => (nodeEventName other).getD .nodeFailed

def stopInvocation (state : WorkflowTransition) (invocation : InvocationState)
    (occurredAt : Timestamp) : EngineResult WorkflowTransition :=
  match requestedStopStatus state invocation.status with
  | none => Except.ok state
  | some status => do
      assertNodeTransition invocation.status status
      let stopped := invocation.withStatus status
      pure <| (state.setInvocation stopped).addDraft <|
        transitionEvent (if status == .timedOut then .nodeTimedOut else .nodeCanceled)
          (stopTime state status occurredAt) (some stopped)

def activeNestedLoopControls (state : WorkflowTransition) : List String :=
  (state.loops.items.filter fun loop => !loop.activeOrdinals.isEmpty).map
    LoopState.controlInvocationKey

def stopUnprotected (protectedControls : List String) (occurredAt : Timestamp)
    (state : WorkflowTransition) (invocation : InvocationState) :
    EngineResult WorkflowTransition :=
  if isStoppableStatus invocation.status &&
      !protectedControls.contains invocation.invocationKey then
    stopInvocation state invocation occurredAt
  else Except.ok state

def iterationHasSettled (state : WorkflowTransition) (iterationKeys : List String) : Bool :=
  !(activeNestedLoopControls state).any iterationKeys.contains &&
    iterationKeys.all fun key =>
      (state.invocations.get? key).any fun current => isTerminalNodeStatus current.status

def stopLoopIteration (occurredAt : Timestamp) (progress : WorkflowTransition × LoopState)
    (ordinal : Nat) : EngineResult (WorkflowTransition × LoopState) := do
  let (state, loop) := progress
  let iterationInvocations := state.invocations.items.filter fun invocation =>
    sameIterationPath invocation.iterationPath (some (loop.iterationScope ordinal))
  assertThat (!iterationInvocations.isEmpty) .loopStateInvalid
    ("active For Each ordinal " ++ toString ordinal ++ " has no body invocation")
  let stopped ← iterationInvocations.foldlM
    (stopUnprotected (activeNestedLoopControls state) occurredAt) state
  if iterationHasSettled stopped (iterationInvocations.map InvocationState.invocationKey) then
    let completed ← completeLoopIteration loop ordinal
    pure (stopped, completed)
  else pure (stopped, loop)

/-- A loop whose iterations have all settled stops together with its control. -/
def stopSettledLoop (state : WorkflowTransition) (loop : LoopState) (stopStatus : NodeStatus)
    (occurredAt : Timestamp) : WorkflowTransition :=
  let terminalStatus := loop.terminalStatus.getD stopStatus
  let closed := state.setLoop { loop with terminalStatus := some terminalStatus }
  match closed.invocations.get? loop.controlInvocationKey with
  | none => closed
  | some control =>
      if isTerminalNodeStatus control.status then closed
      else
        let stopped := control.withStatus terminalStatus
        (closed.setInvocation stopped).addDraft <|
          transitionEvent (stoppedControlEvent terminalStatus)
            (stopTime state stopStatus occurredAt) (some stopped)

def loopAlreadySettled (state : WorkflowTransition) (loop : LoopState) : Bool :=
  loop.activeOrdinals.isEmpty &&
    (state.invocations.get? loop.controlInvocationKey).any fun control =>
      isTerminalNodeStatus control.status

def stopLoop (stopStatus : NodeStatus) (occurredAt : Timestamp) (state : WorkflowTransition)
    (initialLoop : LoopState) : EngineResult WorkflowTransition :=
  if loopAlreadySettled state initialLoop then Except.ok state
  else do
    let (stopped, loop) ← initialLoop.activeOrdinals.foldlM (stopLoopIteration occurredAt)
      (state, initialLoop)
    if !loop.activeOrdinals.isEmpty then pure (stopped.setLoop loop)
    else pure (stopSettledLoop stopped loop stopStatus occurredAt)

def loopsInnermostFirst (state : WorkflowTransition) : List LoopState :=
  sortWith
    (fun left right =>
      (compare right.iterationPath.length left.iterationPath.length).then
        (compareOrdinal left.controlInvocationKey right.controlInvocationKey))
    state.loops.items

def stopLoops (state : WorkflowTransition) (occurredAt : Timestamp) :
    EngineResult WorkflowTransition :=
  match requestedControlStop state with
  | none => Except.ok state
  | some stopStatus =>
      (loopsInnermostFirst state).foldlM (stopLoop stopStatus occurredAt) state

def applyWorkflowStops (state : WorkflowTransition) (occurredAt : Timestamp) :
    EngineResult WorkflowTransition := do
  let stopped ← stopLoops state occurredAt
  stopped.invocations.items.foldlM
    (stopUnprotected (activeNestedLoopControls stopped) occurredAt) stopped

end Engine
end Pertexo
