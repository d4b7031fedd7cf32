import Pertexo.Engine.Declarations
import Pertexo.Engine.RetryDecisions

/-!
# The coordinator

## Branch selections
-/

namespace Pertexo
namespace Engine

open Library
open Values

def canonicalMaterial (material : CompletedOutput) : String :=
  canonicalJson <| jsonObject
    [("attemptId", some (.string material.attemptId)),
      ("invocationKey", some (.string material.invocationKey)),
      ("sequence", some (jsonNat material.sequence)),
      ("value", some material.value)]

structure SeenMaterial where
  sequence : Nat
  attemptId : String
  canonical : String
deriving DecidableEq, Repr

structure BranchSelectionProgress where
  seen : List SeenMaterial := []
  verifiedParallelOutputs : List OutcomeIdentity := []
  observations : List WorkflowObservation := []

def assertMaterialIdentity (minimum : Nat) (material : CompletedOutput) : EngineResult Unit :=
  assertObservation
    (isInteger material.sequence && minimum <= material.sequence && isUuid material.attemptId)
    "completed output identity is invalid"

def jsonString? : Option JsonValue -> Option String
  | some (.string text) => some text
  | _ => none

def jsonItems? : Option JsonValue -> Option (List JsonValue)
  | some (.array items) => some items
  | _ => none

def isInlineReference : Option OutputReference -> Bool
  | some (.inline _) => true
  | _ => false

def assertParallelOutput (outcome : SuccessfulOutcome) (material : CompletedOutput)
    (parallelPorts : List String) : EngineResult Unit := do
  assertObservation (isInlineReference (completedOutputReference outcome material.attemptId))
    "Parallel output reference is invalid"
  assertObservation material.value.isRecord "Parallel output must be an object"
  assertObservation (material.value.hasExactFields ["branchIds"] [])
    "observation fields are invalid"
  let branchIds := jsonItems? (material.value.field? "branchIds")
  assertObservation
    (branchIds.any fun items =>
      items.map (fun item => jsonString? (some item)) == parallelPorts.map some)
    "Parallel output is invalid"

def selectedBranch (material : CompletedOutput) (node : NodeRecord)
    (outputPorts : List String) : EngineResult WorkflowObservation := do
  assertObservation material.value.isRecord "branch output must be an object"
  assertObservation (material.value.hasExactFields ["selectedPort"] [])
    "observation fields are invalid"
  match jsonString? (material.value.field? "selectedPort") with
  | none => fail .observationInvalid "branch output is invalid"
  | some port => do
      assertObservation (outputPorts.contains port) "branch output is invalid"
      pure <| .branchSelected
        { invocationKey := material.invocationKey
          nodeId := node.id
          selectedOutputPort := port }

def readBranchMaterial (nodes : NodeIndex) (checkpoint : WorkflowCheckpoint)
    (outcome : SuccessfulOutcome) (progress : BranchSelectionProgress)
    (material : CompletedOutput) : EngineResult BranchSelectionProgress :=
  match nodeOfInvocation nodes (findInvocation checkpoint material.invocationKey) with
  | none => Except.ok progress
  | some found =>
      let node := found.record
      if isHumanTaskDefinition node.definition then Except.ok progress
      else
        match configuredParallelOutputPorts node with
        | some parallelPorts => do
            assertParallelOutput outcome material parallelPorts
            pure
              { progress with
                verifiedParallelOutputs :=
                  progress.verifiedParallelOutputs ++ [material.identity] }
        | none =>
            match configuredBranchOutputPorts node with
            | none => Except.ok progress
            | some outputPorts => do
                let selected ← selectedBranch material node outputPorts
                pure { progress with observations := progress.observations ++ [selected] }

def branchSelectionStep (nodes : NodeIndex) (checkpoint : WorkflowCheckpoint)
    (outcomes : SuccessfulOutcomes) (progress : BranchSelectionProgress)
    (material : CompletedOutput) : EngineResult BranchSelectionProgress := do
  assertMaterialIdentity 1 material
  let canonical := canonicalMaterial material
  match progress.seen.find? fun other =>
      other.sequence == material.sequence && other.attemptId == material.attemptId with
  | some previous =>
      assertObservation (previous.canonical == canonical) "completed output conflicts"
      pure progress
  | none =>
      let remembered :=
        { progress with
          seen := progress.seen ++
            [{ sequence := material.sequence
               attemptId := material.attemptId
               canonical := canonical }] }
      match outcomes.get? material.identity with
      | none =>
          fail .observationInvalid "completed output has no matching persisted outcome"
      | some outcome =>
          assertObservation (completedOutputReference outcome material.attemptId).isSome
            "completed output has no matching persisted outcome"
          readBranchMaterial nodes checkpoint outcome remembered material

/-- Only fresh successes need material; verified ones keep their authority. -/
def assertParallelMaterial (nodes : NodeIndex) (checkpoint : WorkflowCheckpoint)
    (verified : List OutcomeIdentity) (outcome : SuccessfulOutcome) : EngineResult Unit :=
  let isParallel :=
    (nodeOfInvocation nodes (findInvocation checkpoint outcome.identity.invocationKey)).any
      fun node => (configuredParallelOutputPorts node.record).isSome
  assertObservation (!isParallel || verified.contains outcome.identity)
    "Parallel output is missing"

def branchSelectionObservations (completed : List CompletedOutput)
    (outcomes : SuccessfulOutcomes) (checkpoint : WorkflowCheckpoint) (nodes : NodeIndex) :
    EngineResult (List WorkflowObservation) := do
  let progress ← completed.foldlM (branchSelectionStep nodes checkpoint outcomes) {}
  outcomes.items.forM
    (assertParallelMaterial nodes checkpoint progress.verifiedParallelOutputs)
  pure progress.observations

/-!
## Failures of attempts
-/

/-- What the engine takes from its host: digests, and the tables of its node packages. -/
structure EngineHost where
  sha256Hex : String -> String
  jitteredDelay : Nat -> String -> Nat
  isRoutableExecutorFailure : ExecutorErrorKind -> String -> Bool

inductive RetryDecision where
  | failed
  | outcomeUnknown
  | retry (attemptNumber delayMs : Nat)
deriving DecidableEq, Repr

/-- The coordinator reads no reason of a decision, and no success follows a failure. -/
def Retries.RetryDecision.forCoordinator : Retries.RetryDecision -> Option Engine.RetryDecision
  | .succeeded => none
  | .failed _ => some .failed
  | .outcomeUnknown => some .outcomeUnknown
  | .retry attemptNumber delayMs => some (.retry attemptNumber delayMs)

def decideRetry (host : EngineHost) (runId : String) (failure : AttemptFailure)
    (node : NodeRecord) : RetryDecision :=
  ((Retries.decideRetry host.jitteredDelay
    (Retries.inputOfFailure runId failure node)).forCoordinator).getD .failed

def interruptedFailureStatus (nonSafeUnknown controlCanceled : Bool) : NodeStatus :=
  if nonSafeUnknown then .outcomeUnknown
  else if controlCanceled then .canceled
  else .timedOut

def failureOutcome (failure : AttemptFailure) (status : NodeStatus)
    (routed : Option WorkflowNodeFailureValue) : WorkflowObservation :=
  .outcome
    { invocationKey := failure.attempt.invocationKey
      status := status
      reasonCode := some failure.safeErrorCode
      failure := routed
      coordinatorDerived := true }

def routedFailure (host : EngineHost) (failure : AttemptFailure) (node : NodeRecord) :
    Option WorkflowNodeFailureValue :=
  if !node.disabled && isWorkflowFailureSource node &&
      host.isRoutableExecutorFailure failure.errorKind failure.safeErrorCode then
    some
      { nodeId := node.id
        invocationKey := failure.attempt.invocationKey
        attemptNumber := failure.attempt.attemptNumber
        errorKind := failure.errorKind.text
        safeErrorCode := failure.safeErrorCode }
  else none

def retriedFailure (host : EngineHost) (runId : String) (failure : AttemptFailure)
    (node : NodeRecord) : WorkflowObservation :=
  match decideRetry host runId failure node with
  | .retry _ delayMs =>
      .wait
        { invocationKey := failure.attempt.invocationKey
          resumeAt := failure.occurredAt + delayMs
          waitKind := .retryBackoff
          coordinatorDerived := true }
  | .outcomeUnknown => failureOutcome failure .outcomeUnknown none
  | .failed => failureOutcome failure .failed (routedFailure host failure node)

def resolveFailure (host : EngineHost) (runId : String) (node : NodeRecord)
    (controlCanceled controlDeadline : Bool) (failure : AttemptFailure) : WorkflowObservation :=
  let nonSafeUnknown := node.sideEffectClass != .safe && failure.possiblyDispatched
  if controlCanceled || controlDeadline then
    failureOutcome failure (interruptedFailureStatus nonSafeUnknown controlCanceled) none
  else
    match failure.failureKind with
    | .outcomeUnknown => failureOutcome failure .outcomeUnknown none
    | .canceled =>
        failureOutcome failure (if nonSafeUnknown then .outcomeUnknown else .canceled) none
    | .failed | .retry => retriedFailure host runId failure node

def resolveAttemptFailure (host : EngineHost) (runId : String) (checkpoint : WorkflowCheckpoint)
    (nodes : NodeIndex) (controlCanceled controlDeadline : Bool) (failure : AttemptFailure) :
    EngineResult WorkflowObservation :=
  match findInvocation checkpoint failure.attempt.invocationKey with
  | none => fail .observationInvalid "attempt failure is stale"
  | some invocation =>
      match nodes.get? invocation.nodeId with
      | none => fail .observationInvalid "attempt failure is stale"
      | some node => do
          assertObservation
            (invocation.status == .running &&
              invocation.attemptNumber == failure.attempt.attemptNumber)
            "attempt failure is stale"
          pure (resolveFailure host runId node.record controlCanceled controlDeadline failure)

def resolveAttemptFailures (host : EngineHost) (runId : String) (checkpoint : WorkflowCheckpoint)
    (nodes : NodeIndex) (controlCanceled controlDeadline : Bool)
    (failures : List AttemptFailure) : EngineResult (List WorkflowObservation) :=
  failures.mapM (resolveAttemptFailure host runId checkpoint nodes controlCanceled controlDeadline)

/-!
## Loops
-/

structure TerminalOutcome where
  invocationKey : String
  status : NodeStatus
deriving DecidableEq, Repr

abbrev TerminalOutcomes := Keyed TerminalOutcome TerminalOutcome.invocationKey

def persistedTerminalOutcome? (declared : List String) : PersistedFact -> Option TerminalOutcome
  | .sequenced fact =>
      match fact.detail with
      | .outcome attempt status _ _ =>
          if declared.contains attempt.invocationKey then none
          else some { invocationKey := attempt.invocationKey, status := status }
      | _ => none
  | _ => none

def derivedTerminalOutcome? : WorkflowObservation -> Option TerminalOutcome
  | .outcome fact =>
      if fact.status == .skipped then none
      else some { invocationKey := fact.invocationKey, status := fact.status }
  | _ => none

def terminalOutcomesForLoop (facts : List PersistedFact) (declared : List String)
    (derivedObservations : List WorkflowObservation) : TerminalOutcomes :=
  Keyed.ofList <|
    facts.filterMap (persistedTerminalOutcome? declared) ++
      derivedObservations.filterMap derivedTerminalOutcome?

structure LoopDeclarationProgress where
  materials : List (String × String) := []
  observations : List LoopStartedObservation := []

def parseForEachOutput (value : JsonValue) : EngineResult (List JsonValue) := do
  assertObservation value.isRecord "For Each output must be an object"
  assertObservation (value.hasExactFields ["items", "iterationCount"] [])
    "observation fields are invalid"
  match jsonItems? (value.field? "items"), value.field? "iterationCount" with
  | some items, some (.number count) => do
      assertObservation (count == toString items.length) "For Each output is invalid"
      pure items
  | _, _ => fail .observationInvalid "For Each output is invalid"

def startedLoopObservation (host : EngineHost) (node : NodeRecord) (structured : ForEachStructure)
    (invocation : InvocationState) (collection : OutputReference) (items : List JsonValue) :
    LoopStartedObservation :=
  { loopId := node.id
    controlInvocationKey := invocation.invocationKey
    branchPath := invocation.branchPath.getD []
    iterationPath := invocation.iterationPath.getD []
    bodyRootNodeIds := bodyRootNodeIds structured.body
    bodySinkNodeId := (bodySinkNodeId structured.body).getD ""
    collection := collection
    collectionChecksum := host.sha256Hex (canonicalJson (.array items))
    collectionSize := items.length
    maxIterations := structured.maxIterations
    maxConcurrency := structured.maxConcurrency }

def forEachStructureOf (node : ExecutableNode) : Option ForEachStructure :=
  if workflowControlOutputKind node.record.definition == some .forEach then node.structured
  else none

def declareLoopMaterial (host : EngineHost) (progress : LoopDeclarationProgress)
    (node : NodeRecord) (structured : ForEachStructure) (invocation : InvocationState)
    (outcome : SuccessfulOutcome) (material : CompletedOutput) :
    EngineResult LoopDeclarationProgress := do
  let canonical := canonicalMaterial material
  match progress.materials.find? fun known => known.fst == invocation.invocationKey with
  | some previous =>
      assertObservation (previous.snd == canonical) "For Each declaration output conflicts"
      pure progress
  | none =>
      let items ← parseForEachOutput material.value
      match completedOutputReference outcome material.attemptId with
      | none => fail .observationInvalid "For Each output reference is invalid"
      | some collection =>
          pure
            { materials := progress.materials ++ [(invocation.invocationKey, canonical)]
              observations := progress.observations ++
                [startedLoopObservation host node structured invocation collection items] }

def declareLoopStep (host : EngineHost) (checkpoint : WorkflowCheckpoint) (nodes : NodeIndex)
    (outcomes : SuccessfulOutcomes) (progress : LoopDeclarationProgress)
    (material : CompletedOutput) : EngineResult LoopDeclarationProgress := do
  assertMaterialIdentity 0 material
  match outcomes.get? material.identity with
  | none => fail .observationInvalid "completed output has no matching persisted outcome"
  | some outcome =>
      match findInvocation checkpoint material.invocationKey with
      | none => pure progress
      | some invocation =>
          match nodes.get? invocation.nodeId with
          | none => pure progress
          | some node =>
              match forEachStructureOf node with
              | none => pure progress
              | some structured =>
                  declareLoopMaterial host progress node.record structured invocation outcome
                    material

def failedIterationInvocation (checkpoint : WorkflowCheckpoint) (outcomes : TerminalOutcomes)
    (loop : LoopState) (ordinal : Nat) : Option InvocationState :=
  checkpoint.invocations.find? fun invocation =>
    let status :=
      ((outcomes.get? invocation.invocationKey).map TerminalOutcome.status).getD
        invocation.status
    inIteration loop ordinal invocation && isTerminalNodeStatus status && !settlesNormally status

def iterationTerminalStatus (outcomes : TerminalOutcomes) (declared : List String)
    (invocation : InvocationState) : Option NodeStatus :=
  if declared.contains invocation.invocationKey then none
  else
    match outcomes.get? invocation.invocationKey with
    | some outcome => some outcome.status
    | none => if isTerminalNodeStatus invocation.status then some invocation.status else none

def completedIteration (checkpoint : WorkflowCheckpoint) (outcomes : TerminalOutcomes)
    (declared : List String) (loop : LoopState) (ordinal : Nat) :
    EngineResult (List LoopIterationCompletedObservation) := do
  let sink ← scopedLoopSinkInvocation loop ordinal checkpoint.invocations
  match failedIterationInvocation checkpoint outcomes loop ordinal <|> sink with
  | none => pure []
  | some terminal =>
      match iterationTerminalStatus outcomes declared terminal with
      | none => pure []
      | some status =>
          pure
            [{ loopId := loop.loopId
               controlInvocationKey := loop.controlInvocationKey
               invocationKey := terminal.invocationKey
               ordinal := ordinal
               status := status }]

def completedLoopObservations (checkpoint : WorkflowCheckpoint) (outcomes : TerminalOutcomes)
    (declared : List String) : EngineResult (List LoopIterationCompletedObservation) := do
  let completed ← checkpoint.loops.mapM fun loop =>
    loop.activeOrdinals.mapM (completedIteration checkpoint outcomes declared loop)
  pure completed.flatten.flatten

def loopObservationKey : WorkflowObservation -> String
  | .loopStarted fact => fact.controlInvocationKey ++ ":0:"
  | .loopIterationCompleted fact =>
      fact.controlInvocationKey ++ ":1:" ++ padStart 16 '0' (toString fact.ordinal)
  | _ => ""

structure ForEachObservations where
  observations : List WorkflowObservation
  declarationInvocationKeys : List String

def forEachCoordinatorObservations (host : EngineHost) (completed : List CompletedOutput)
    (facts : List PersistedFact) (declaredElsewhere : List String)
    (outcomes : SuccessfulOutcomes) (checkpoint : WorkflowCheckpoint) (nodes : NodeIndex)
    (derivedObservations : List WorkflowObservation) : EngineResult ForEachObservations := do
  let terminalOutcomes := terminalOutcomesForLoop facts declaredElsewhere derivedObservations
  let progress ← completed.foldlM (declareLoopStep host checkpoint nodes outcomes) {}
  let declared := progress.observations.map LoopStartedObservation.controlInvocationKey
  let completions ← completedLoopObservations checkpoint terminalOutcomes declared
  pure
    { observations :=
        sortWith
          (fun left right => compareOrdinal (loopObservationKey left) (loopObservationKey right))
          (progress.observations.map WorkflowObservation.loopStarted ++
            completions.map WorkflowObservation.loopIterationCompleted)
      declarationInvocationKeys := declared }

/-!
## Joins
-/

def projectOutcome (projected : InvocationMap) : WorkflowObservation -> InvocationMap
  | .outcome fact =>
      match projected.get? fact.invocationKey with
      | none => projected
      | some invocation =>
          projected.set
            { invocation.withStatus fact.status with
              output := fact.output <|> invocation.output }
  | _ => projected

def settledBranchDisposition (statuses : List NodeStatus) : BranchDisposition :=
  if statuses.contains .failed || statuses.contains .timedOut ||
      statuses.contains .outcomeUnknown then
    .failed
  else if statuses.contains .canceled then .canceled
  else if statuses.all fun status => status == .skipped then .skipped
  else .arrived

def mergeSourceNodeId (edges : List WorkflowEdge) (mergeId branchId : String) :
    Option String :=
  (edges.find? fun edge => edge.target.nodeId == mergeId && edge.target.port == branchId).map
    fun edge => edge.source.nodeId

def branchInvocations (projected : InvocationMap) (parallel : InvocationState)
    (parallelNodeId branchId : String) : List InvocationState :=
  projected.items.filter fun invocation =>
    sameIterationPath invocation.iterationPath parallel.iterationPath &&
      branchPathHasPrefix invocation.branchPath
        (some (parallel.branchPath.getD [] ++
          [{ nodeId := parallelNodeId, outputPort := branchId }]))

/-- A branch settles once every step in its scope has, its last step among them. -/
def branchEntry (branchInvocations : List InvocationState)
    (source : Option String) (parallelNodeId branchId : String) : Option BranchLedgerEntry :=
  if branchInvocations.isEmpty then
    if source == some parallelNodeId then
      some { branchId := branchId, disposition := .missing }
    else none
  else if branchInvocations.any fun invocation => !isTerminalNodeStatus invocation.status then
    none
  else
    let last := branchInvocations.find? fun invocation => some invocation.nodeId == source
    if last.isNone && source != some parallelNodeId then none
    else
      let disposition := settledBranchDisposition
        (branchInvocations.map InvocationState.status)
      some
        { branchId := branchId
          disposition := disposition
          output := if disposition == .arrived then last.bind InvocationState.output else none }

def branchDispositions (edges : List WorkflowEdge) (projected : InvocationMap) (mergeId : String)
    (config : MergeConfig) (branchIds : List String) (joinInvocationKey : String)
    (parallel : InvocationState) : List WorkflowObservation :=
  branchIds.filterMap fun branchId =>
    (branchEntry (branchInvocations projected parallel config.parallelNodeId branchId)
      (mergeSourceNodeId edges mergeId branchId) config.parallelNodeId branchId).map
      fun entry =>
        .branchDisposition
          { joinId := mergeId, joinInvocationKey := joinInvocationKey, branch := entry }

def joinObservations (workflowVersionId : String) (edges : List WorkflowEdge)
    (projected : InvocationMap) (mergeId : String) (config : MergeConfig)
    (branchIds : List String) (parallel : InvocationState) :
    EngineResult (List WorkflowObservation) := do
  let joinInvocationKey ← scopedInvocationKey workflowVersionId mergeId parallel.branchPath
    parallel.iterationPath
  let declared : JoinDeclaredObservation :=
    { joinId := mergeId
      joinInvocationKey := joinInvocationKey
      branchPath := parallel.branchPath.getD []
      iterationPath := parallel.iterationPath.getD []
      policy := config.policy
      branchIds := branchIds }
  pure <|
    .joinDeclared declared ::
      branchDispositions edges projected mergeId config branchIds joinInvocationKey parallel

def mergeObservations (workflowVersionId : String) (edges : List WorkflowEdge)
    (projected : InvocationMap) (nodes : NodeIndex) (merge : ExecutableNode) :
    EngineResult (List WorkflowObservation) :=
  match mergeConfigOf merge.record with
  | none => identityError "Merge config is invalid"
  | some config =>
      match pairedBranchIds nodes config with
      | none => identityError "Merge pairing is invalid"
      | some branchIds => do
          let parallels := projected.items.filter fun invocation =>
            invocation.status == .succeeded && invocation.nodeId == config.parallelNodeId
          let observations ← parallels.mapM
            (joinObservations workflowVersionId edges projected merge.record.id config branchIds)
          pure observations.flatten

def mergeCoordinatorObservations (executable : CompiledWorkflowExecutable)
    (checkpoint : WorkflowCheckpoint) (observations : List WorkflowObservation)
    (nodes : NodeIndex) : EngineResult (List WorkflowObservation) := do
  let projected := observations.foldl projectOutcome (Keyed.ofList checkpoint.invocations)
  let merges := nodes.items.filter fun node => isCoreMergeDefinition node.record.definition
  let derived ← merges.mapM
    (mergeObservations checkpoint.workflowVersionId (executableEdges executable.graph) projected
      nodes)
  pure derived.flatten

/-!
## Advancing a run

The coordinator turns the persisted facts of a run into observations, and the
transition engine turns the observations into the next checkpoint and a plan.
-/

structure AdvanceWorkflowInput where
  runId : String
  executable : CompiledWorkflowExecutable
  workflowVersionId : String
  checkpoint : WorkflowCheckpoint
  observations : List PersistedFact := []
  completedOutputs : List CompletedOutput := []
  occurredAt : Timestamp
  maximumAdmissions : Nat
  hasExecutionSlot : Bool := true
  callOutcomes : List WorkflowCallOutcome := []
  taskOutcomes : List PendingTaskOutcome := []

structure CoordinatedObservations where
  persisted : ParsedPersistedObservations
  branchSelections : List WorkflowObservation
  resolvedFailures : List WorkflowObservation
  calls : DeclaredWork WorkflowCallIntent
  callOutcomes : List WorkflowObservation
  tasks : DeclaredWork PendingTaskIntent
  taskOutcomes : List WorkflowObservation
  forEach : ForEachObservations
  executionObservations : List WorkflowObservation
  coordinatorObservations : List WorkflowObservation

/-- The declaration owns its outcome, which only moves the event cursor. -/
def rewriteDeclaredOutcome (declared : List String) :
    WorkflowObservation -> WorkflowObservation
  | .outcome fact =>
      if declared.contains fact.invocationKey then .cursorOnly else .outcome fact
  | other => other

def coordinateObservations (host : EngineHost) (input : AdvanceWorkflowInput)
    (checkpoint : WorkflowCheckpoint) : EngineResult CoordinatedObservations := do
  let nodes := nodesById input.executable
  let persisted ← parsePersistedObservations input.observations checkpoint
  let outcomes := indexPersistedSuccessfulOutcomes persisted.facts
  let branchSelections ← branchSelectionObservations input.completedOutputs outcomes checkpoint
    nodes
  let observed := persisted.fresh.map SequencedFact.toObservation
  let controlCanceled := checkpoint.cancelRequested || observed.contains .cancelRequested
  let controlDeadline := checkpoint.deadlineExpired || persisted.deadlineExpiration.isSome
  let resolvedFailures ← resolveAttemptFailures host input.runId checkpoint nodes
    controlCanceled controlDeadline persisted.attemptFailures
  let calls ← callDeclarationObservations outcomes checkpoint nodes
  let callOutcomes ← callOutcomeObservations input.callOutcomes checkpoint input.executable nodes
  let tasks ← taskDeclarationObservations input.completedOutputs outcomes checkpoint nodes
  let taskOutcomes ← taskOutcomeObservations input.taskOutcomes checkpoint input.executable nodes
  let declaredElsewhere := calls.declarationInvocationKeys ++ tasks.declarationInvocationKeys
  let forEach ← forEachCoordinatorObservations host input.completedOutputs persisted.facts
    declaredElsewhere outcomes checkpoint nodes (resolvedFailures ++ callOutcomes ++ taskOutcomes)
  let executionObservations := observed.map
    (rewriteDeclaredOutcome (forEach.declarationInvocationKeys ++ declaredElsewhere))
  let coordinatorObservations ← mergeCoordinatorObservations input.executable checkpoint
    (executionObservations ++ resolvedFailures ++ callOutcomes ++ taskOutcomes) nodes
  pure
    { persisted := persisted
      branchSelections := branchSelections
      resolvedFailures := resolvedFailures
      calls := calls
      callOutcomes := callOutcomes
      tasks := tasks
      taskOutcomes := taskOutcomes
      forEach := forEach
      executionObservations := executionObservations
      coordinatorObservations := coordinatorObservations }

def allObservations (coordinated : CoordinatedObservations) : List WorkflowObservation :=
  coordinated.executionObservations ++ coordinated.branchSelections ++
    coordinated.resolvedFailures ++ coordinated.calls.observations ++ coordinated.callOutcomes ++
    coordinated.tasks.observations ++ coordinated.taskOutcomes ++
    coordinated.forEach.observations ++ coordinated.coordinatorObservations

def schedulerInput (input : AdvanceWorkflowInput) (checkpoint : WorkflowCheckpoint)
    (coordinated : CoordinatedObservations) : AdvanceFromSchedulerInput :=
  { checkpoint := checkpoint
    schedulerState := schedulerState input.executable
    observations := allObservations coordinated
    occurredAt := input.occurredAt
    maximumAdmissions := input.maximumAdmissions
    hasExecutionSlot := input.hasExecutionSlot
    persistedObservationCursor := coordinated.persisted.cursor
    deadlineExpiration := coordinated.persisted.deadlineExpiration
    dueResumptions := coordinated.persisted.dueResumptions }

/-- The checkpoint is read and checked, and the facts are coordinated against it. -/
def prepareAdvance (host : EngineHost) (input : AdvanceWorkflowInput) :
    EngineResult AdvanceFromSchedulerInput := do
  let checkpoint ← parseCheckpoint input.checkpoint
  assertIdentity (checkpoint.workflowVersionId == input.workflowVersionId)
    "checkpoint workflow version does not match executable identity"
  assertCheckpointMatchesExecutable checkpoint input.executable
  let coordinated ← coordinateObservations host input checkpoint
  pure (schedulerInput input checkpoint coordinated)

def advanceWorkflow (host : EngineHost) (input : AdvanceWorkflowInput) :
    EngineResult WorkflowTransitionPlan := do
  let prepared ← prepareAdvance host input
  advanceWorkflowFromSchedulerState prepared

end Engine
end Pertexo
