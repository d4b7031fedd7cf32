import Pertexo.Engine.CheckpointJson
import Pertexo.Engine.Scheduling
import Pertexo.Library.Results

/-!
# Reading checkpoints

## Fields
-/

namespace Pertexo
namespace Engine

open Library
open Values

def maxSafeInteger : Nat := 9007199254740991

def isInteger (n : Nat) : Bool :=
  n <= maxSafeInteger

/-- The first instant after the four-digit years. -/
def canonicalTimestampBound : Nat := 253402300800000

def assertPersistedWorkflowVersionId (workflowVersionId : String) : EngineResult Unit :=
  assertCheckpoint (isUuid workflowVersionId) "workflowVersionId is invalid"

def sortedUnique (values : List String) (label : String) : EngineResult (List String) := do
  assertCheckpoint (!values.contains "") (label ++ " contains an empty key")
  let sorted := sortOrdinal values
  assertCheckpoint (decide sorted.Nodup) (label ++ " contains duplicates")
  pure sorted

def parseOutputReference (label : String) : OutputReference -> EngineResult OutputReference
  | .inline attemptId => do
      assertCheckpoint (isUuid attemptId) (label ++ " attemptId must be a canonical UUID")
      pure (.inline attemptId)
  | .task taskId => do
      assertCheckpoint (isUuid taskId) (label ++ " taskId must be a canonical UUID")
      pure (.task taskId)
  | .call callId => do
      assertCheckpoint (isUuid callId) (label ++ " callId must be a canonical UUID")
      pure (.call callId)
  | .reused nodeRunId => do
      assertCheckpoint (isUuid nodeRunId) (label ++ " nodeRunId must be a canonical UUID")
      pure (.reused nodeRunId)
  | .artifact artifactId => do
      assertCheckpoint (isUuid artifactId) (label ++ " artifactId must be a canonical UUID")
      pure (.artifact artifactId)

def parseOptionalOutput (label : String) :
    Option OutputReference -> EngineResult (Option OutputReference)
  | none => Except.ok none
  | some output => do
      let parsed ← parseOutputReference label output
      pure (some parsed)

/-!
## Invocations
-/

/-- A wait kind identifies delayed work only. -/
def waitIsValid (status : NodeStatus) (waitKind : Option WaitKind)
    (resumeAt : Option Timestamp) : Bool :=
  match waitKind with
  | none => true
  | some .nodeWait | some .retryBackoff => status == .waiting || status == .ready
  | some .workflowCall | some .humanTask => status == .waiting && resumeAt.isNone

def isReusedOutput : Option OutputReference -> Bool
  | some (.reused _) => true
  | _ => false

def parseInvocation (invocation : InvocationState) : EngineResult Unit := do
  assertCheckpoint (invocation.invocationKey != "") "invocationKey is required"
  assertCheckpoint (invocation.nodeId != "") "nodeId is required"
  assertCheckpoint (isInteger invocation.attemptNumber)
    "attemptNumber must be a non-negative integer"
  assertCheckpoint (invocation.resumeAt.all fun instant => instant < canonicalTimestampBound)
    "resumeAt must be a canonical UTC timestamp"
  assertCheckpoint (invocation.resumeAt.isNone || invocation.status == .waiting)
    "resumeAt must exist only for a waiting invocation"
  assertCheckpoint (waitIsValid invocation.status invocation.waitKind invocation.resumeAt)
    "waitKind must identify delayed work only"
  let _ ← parseOptionalOutput "invocation output" invocation.output
  assertCheckpoint
    (!isReusedOutput invocation.output ||
      (invocation.status == .succeeded && invocation.attemptNumber == 0 &&
        invocation.waitKind.isNone && invocation.resumeAt.isNone))
    "reused output must belong to a completed invocation without attempts"
  assertCheckpoint
    (invocation.failureHandling.isNone ||
      (invocation.status == .failed && 0 < invocation.attemptNumber))
    "handling requires an executed failed source"
  assertCheckpoint
    (invocation.failureHandling.all fun handling => handling.sinkInvocationKey != "")
    "handling identity or disposition is invalid"

def assertBranchPath (nodeLabel portLabel : String) (path : BranchPath) : EngineResult Unit :=
  path.forM fun part => do
    assertCheckpoint (part.nodeId != "") nodeLabel
    assertCheckpoint (part.outputPort != "") portLabel

def assertIterationPath (nodeLabel ordinalLabel : String) (path : IterationPath) :
    EngineResult Unit :=
  path.forM fun part => do
    assertCheckpoint (part.loopNodeId != "") nodeLabel
    assertCheckpoint (isInteger part.ordinal) ordinalLabel

def hasUniqueBranchNodes (path : BranchPath) : Bool :=
  decide (path.map BranchScopePart.nodeId).Nodup

/-- An invocation with one scope path gets the other one as the empty path. -/
def InvocationState.normalizeScope (invocation : InvocationState) : InvocationState :=
  if invocation.branchPath.isNone && invocation.iterationPath.isNone then invocation
  else
    { invocation with
      branchPath := some (invocation.branchPath.getD [])
      iterationPath := some (invocation.iterationPath.getD []) }

def assertScopedKey (workflowVersionId : String) (invocation : InvocationState) :
    EngineResult Unit :=
  if invocation.branchPath.isNone && invocation.iterationPath.isNone then Except.ok ()
  else do
    let key ← scopedInvocationKey workflowVersionId invocation.nodeId invocation.branchPath
      invocation.iterationPath
    assertCheckpoint (invocation.invocationKey == key)
      "invocation key disagrees with branch scope"

def parseScopedInvocation (workflowVersionId : String) (invocation : InvocationState) :
    EngineResult InvocationState := do
  parseInvocation invocation
  assertBranchPath "branch scope nodeId is required" "branch scope outputPort is required"
    (invocation.branchPath.getD [])
  assertIterationPath "iteration scope loopNodeId is required"
    "iteration scope ordinal is invalid" (invocation.iterationPath.getD [])
  assertCheckpoint (hasUniqueBranchNodes (invocation.branchPath.getD []))
    "branch scope node IDs must be unique"
  assertScopedKey workflowVersionId invocation
  pure invocation.normalizeScope

def sortInvocations (invocations : List InvocationState) : List InvocationState :=
  sortWith (fun left right => compareOrdinal left.invocationKey right.invocationKey) invocations

/-!
## Joins
-/

def parseLedgerEntry (entry : BranchLedgerEntry) : EngineResult BranchLedgerEntry := do
  assertCheckpoint (entry.branchId != "") "branchId is required"
  let output ← parseOptionalOutput "branch output" entry.output
  pure { entry with output := output }

def parseLedger (ledger : List BranchLedgerEntry) : EngineResult (List BranchLedgerEntry) := do
  let entries ← ledger.mapM parseLedgerEntry
  pure (sortLedger entries)

def hasNoPendingBranch (ledger : List BranchLedgerEntry) : Bool :=
  ledger.all fun entry => entry.disposition != .pending

def parseJoinSelection (policy : JoinPolicy) (ledger : List BranchLedgerEntry) :
    Option (List String) -> EngineResult (Option (List String))
  | none => Except.ok none
  | some selection => do
      let selectedBranchIds ← sortedUnique selection "selectedBranchIds"
      assertCheckpoint (hasNoPendingBranch ledger)
        "a selected join cannot contain pending branches"
      let decision ← settleJoin policy ledger
      let agrees :=
        match decision with
        | .satisfied expected _ => selectedBranchIds == expected
        | _ => false
      assertCheckpoint agrees "persisted join selection is inconsistent"
      pure (some selectedBranchIds)

def assertJoinFailure (policy : JoinPolicy) (ledger : List BranchLedgerEntry) :
    Option UnsatisfiedReason -> EngineResult Unit
  | none => Except.ok ()
  | some reason => do
      assertCheckpoint (hasNoPendingBranch ledger)
        "an unsatisfied join cannot contain pending branches"
      let decision ← settleJoin policy ledger
      let agrees :=
        match decision with
        | .unsatisfied expected _ => reason == expected
        | _ => false
      assertCheckpoint agrees "persisted join failure is inconsistent"

def joinCountOf : JoinPolicy -> Option Nat
  | .count required => some required
  | _ => none

def parseJoin (join : JoinState) : EngineResult JoinState := do
  assertCheckpoint (join.joinId != "") "joinId is required"
  assertCheckpoint (join.joinInvocationKey != "") "join invocation key is invalid"
  assertBranchPath "join branch scope is invalid" "join branch scope is invalid" join.branchPath
  assertIterationPath "join iteration scope is invalid" "join iteration scope is invalid"
    join.iterationPath
  assertCheckpoint ((joinCountOf join.policy).all fun required =>
    isInteger required && 0 < required) "join count must be positive"
  let ledger ← parseLedger join.ledger
  assertCheckpoint (decide (ledger.map BranchLedgerEntry.branchId).Nodup)
    "join branch IDs must be unique"
  assertCheckpoint (!ledger.isEmpty) "join must declare at least one branch"
  assertCheckpoint ((joinCountOf join.policy).all fun required => required <= ledger.length)
    "join count exceeds declared branches"
  assertCheckpoint (join.selectedBranchIds.isNone || join.unsatisfiedReasonCode.isNone)
    "join cannot be both satisfied and unsatisfied"
  let selectedBranchIds ← parseJoinSelection join.policy ledger join.selectedBranchIds
  assertJoinFailure join.policy ledger join.unsatisfiedReasonCode
  pure { join with ledger := ledger, selectedBranchIds := selectedBranchIds }

/-!
## Loops
-/

def isLoopTerminalStatus (status : NodeStatus) : Bool :=
  status == .failed || status == .canceled || status == .timedOut || status == .outcomeUnknown

def assertLoopBounds (loop : LoopState) : EngineResult Unit := do
  assertCheckpoint (isInteger loop.collectionSize) "collectionSize is invalid"
  assertCheckpoint (isInteger loop.maxConcurrency) "maxConcurrency is invalid"
  assertCheckpoint (isInteger loop.maxIterations) "maxIterations is invalid"
  assertCheckpoint (isInteger loop.nextOrdinal) "nextOrdinal is invalid"
  assertCheckpoint (isInteger loop.completedPrefix) "completedPrefix is invalid"
  assertCheckpoint (loop.completedPrefix <= loop.nextOrdinal) "loop frontier exceeds cursor"
  assertCheckpoint (0 < loop.maxConcurrency) "maxConcurrency must be positive"
  assertCheckpoint (0 < loop.maxIterations) "maxIterations must be positive"
  assertCheckpoint (loop.maxConcurrency <= loop.maxIterations)
    "loop concurrency exceeds iterations"
  assertCheckpoint (loop.collectionSize <= loop.maxIterations)
    "loop collection exceeds iterations"
  assertCheckpoint (loop.nextOrdinal <= loop.collectionSize) "loop cursor exceeds collection"
  assertCheckpoint (loop.activeOrdinals.all isInteger) "activeOrdinals must contain integers"
  assertCheckpoint (loop.terminalOrdinals.all isInteger) "terminalOrdinals must contain integers"

def parseLoopOrdinals (loop : LoopState) : EngineResult LoopState := do
  let activeOrdinals := sortOrdinals loop.activeOrdinals
  let terminalOrdinals := sortOrdinals loop.terminalOrdinals
  let ordinals := activeOrdinals ++ terminalOrdinals
  assertCheckpoint
    (ordinals.all fun ordinal =>
      isInteger ordinal && loop.completedPrefix <= ordinal && ordinal < loop.collectionSize)
    "loop ordinal is outside the collection"
  assertCheckpoint (decide ordinals.Nodup) "loop ordinals overlap"
  assertCheckpoint (activeOrdinals.length <= loop.maxConcurrency)
    "active loop ordinals exceed concurrency"
  assertCheckpoint
    (sortOrdinals ordinals ==
      (List.range (loop.nextOrdinal - loop.completedPrefix)).map fun index =>
        loop.completedPrefix + index)
    "loop cursor has an unrecorded ordinal"
  pure { loop with activeOrdinals := activeOrdinals, terminalOrdinals := terminalOrdinals }

def parseLoop (loop : LoopState) : EngineResult LoopState := do
  assertCheckpoint (loop.loopId != "") "loopId is required"
  let collection ← parseOutputReference "loop collection" loop.collection
  assertCheckpoint (loop.controlInvocationKey != "") "loop control key is invalid"
  assertBranchPath "loop branch scope is invalid" "loop branch scope is invalid" loop.branchPath
  assertIterationPath "loop iteration scope is invalid" "loop iteration scope is invalid"
    loop.iterationPath
  assertCheckpoint (!loop.bodyRootNodeIds.isEmpty) "loop body roots are invalid"
  let bodyRootNodeIds ← sortedUnique loop.bodyRootNodeIds "loop body roots"
  assertCheckpoint (loop.bodySinkNodeId != "") "loop body sink is invalid"
  assertCheckpoint (loop.terminalStatus.all isLoopTerminalStatus)
    "loop terminal status is invalid"
  assertCheckpoint (loop.collectionChecksum != "") "collectionChecksum is required"
  assertLoopBounds loop
  parseLoopOrdinals { loop with collection := collection, bodyRootNodeIds := bodyRootNodeIds }

/-!
## Consistency between the records
-/

def loopParentStatusIsConsistent (loop : LoopState) (parent : InvocationState)
    (cancelRequested deadlineExpired : Bool) : Bool :=
  match loop.terminalStatus with
  | some terminalStatus => parent.status == terminalStatus
  | none =>
      if cancelRequested && parent.status == .canceled then true
      else if deadlineExpired && parent.status == .timedOut then true
      else if loop.nextOrdinal == loop.collectionSize && loop.activeOrdinals.isEmpty then
        parent.status == .succeeded
      else parent.status == .pending || parent.status == .waiting

def assertJoinInvocation (checkpoint : WorkflowCheckpoint) (join : JoinState) :
    EngineResult Unit :=
  match checkpoint.invocations.find? fun invocation =>
      invocation.invocationKey == join.joinInvocationKey with
  | none => assertCheckpoint false "join invocation is missing"
  | some joinInvocation =>
      if join.unsatisfiedReasonCode.isSome then
        assertCheckpoint (joinInvocation.status == .failed)
          "unsatisfied join invocation must be failed"
      else if join.selectedBranchIds.isSome then
        assertCheckpoint (joinInvocation.status != .pending)
          "selected join invocation cannot be pending"
      else
        assertCheckpoint
          (joinInvocation.status == .pending ||
            (checkpoint.cancelRequested && joinInvocation.status == .canceled) ||
            (checkpoint.deadlineExpired && joinInvocation.status == .canceled))
          "unsettled join invocation is inconsistent"

def assertLoopParent (checkpoint : WorkflowCheckpoint) (loop : LoopState) :
    EngineResult Unit :=
  match checkpoint.invocations.find? fun invocation =>
      invocation.invocationKey == loop.controlInvocationKey with
  | none => assertCheckpoint false "loop parent invocation is missing"
  | some parent =>
      assertCheckpoint
        (loopParentStatusIsConsistent loop parent checkpoint.cancelRequested
          checkpoint.deadlineExpired)
        "loop parent invocation is inconsistent"

def waitingIsOwned (loops : List LoopState) (invocation : InvocationState) : Bool :=
  invocation.status != .waiting ||
    (invocation.resumeAt.isSome && invocation.waitKind.isSome) ||
    (loops.any fun loop => loop.controlInvocationKey == invocation.invocationKey) ||
    invocation.waitKind == some .workflowCall || invocation.waitKind == some .humanTask

def assertInvocationControls (checkpoint : WorkflowCheckpoint) : EngineResult Unit := do
  checkpoint.joins.forM (assertJoinInvocation checkpoint)
  checkpoint.loops.forM (assertLoopParent checkpoint)
  assertCheckpoint (checkpoint.invocations.all (waitingIsOwned checkpoint.loops))
    "ordinary waiting invocation requires resumeAt"

def totalCollectionSize (loops : List LoopState) : Nat :=
  (loops.map LoopState.collectionSize).sum

def assertIterationBudget (checkpoint : WorkflowCheckpoint) : EngineResult Unit := do
  assertCheckpoint
    (checkpoint.retiredIterationBudget.all fun retired => isInteger retired && 0 < retired)
    "retiredIterationBudget is invalid"
  assertCheckpoint (checkpoint.initialIterationBudget.all isInteger)
    "initialIterationBudget is invalid"
  assertCheckpoint
    ((checkpoint.loops.isEmpty && checkpoint.retiredIterationBudget.isNone) ||
      checkpoint.initialIterationBudget.isSome)
    "loop checkpoint requires initialIterationBudget"
  assertCheckpoint
    (checkpoint.initialIterationBudget.all fun initial =>
      checkpoint.remainingIterationBudget + checkpoint.retiredIterationBudget.getD 0 +
        totalCollectionSize checkpoint.loops == initial)
    "iteration budget accounting is inconsistent"

def branchSelectionKey (selection : BranchSelection) : String :=
  selection.invocationKey ++ "\x00" ++ selection.nodeId

abbrev BranchSelectionMap := Keyed BranchSelection branchSelectionKey

def parseBranchSelection (invocations : List InvocationState) (selections : BranchSelectionMap)
    (selection : BranchSelection) : EngineResult BranchSelectionMap := do
  assertCheckpoint (selection.invocationKey != "") "branch selection invocationKey is required"
  assertCheckpoint (selection.nodeId != "") "branch selection nodeId is required"
  assertCheckpoint (selection.selectedOutputPort != "")
    "branch selection output port is required"
  let invocation := invocations.find? fun candidate =>
    candidate.invocationKey == selection.invocationKey
  assertCheckpoint
    (invocation.any fun found =>
      found.nodeId == selection.nodeId && found.status == .succeeded && found.output.isSome)
    "branch selection requires a succeeded output-bearing invocation"
  assertCheckpoint
    ((selections.get? (branchSelectionKey selection)).all fun existing =>
      existing.selectedOutputPort == selection.selectedOutputPort)
    "branch selection conflicts with an existing selection"
  pure (selections.set selection)

def compareBranchSelections (left right : BranchSelection) : Ordering :=
  (compareOrdinal left.invocationKey right.invocationKey).then
    (compareOrdinal left.nodeId right.nodeId)

def parseBranchSelections (invocations : List InvocationState)
    (selections : List BranchSelection) : EngineResult (List BranchSelection) := do
  let parsed ← selections.foldlM (parseBranchSelection invocations) Keyed.empty
  pure (sortWith compareBranchSelections parsed.items)

/-!
## Whole checkpoints
-/

def readyKeys (invocations : List InvocationState) : List String :=
  (invocations.filter fun invocation => invocation.status == .ready).map
    InvocationState.invocationKey

def parseCheckpointRecord (checkpoint : WorkflowCheckpoint) :
    EngineResult WorkflowCheckpoint := do
  assertPersistedWorkflowVersionId checkpoint.workflowVersionId
  assertCheckpoint (isInteger checkpoint.revision) "revision is invalid"
  assertCheckpoint (isInteger checkpoint.nextEventSequence && 0 < checkpoint.nextEventSequence)
    "nextEventSequence is invalid"
  assertCheckpoint (isInteger checkpoint.remainingIterationBudget)
    "remainingIterationBudget is invalid"
  let parsedInvocations ←
    checkpoint.invocations.mapM (parseScopedInvocation checkpoint.workflowVersionId)
  let invocations := sortInvocations parsedInvocations
  assertCheckpoint (decide (invocations.map InvocationState.invocationKey).Nodup)
    "invocation keys must be unique"
  let parsedJoins ← checkpoint.joins.mapM parseJoin
  let joins := sortWith (fun left right => compareOrdinal left.joinId right.joinId) parsedJoins
  assertCheckpoint (decide (joins.map JoinState.joinInvocationKey).Nodup)
    "join invocation keys must be unique"
  let parsedLoops ← checkpoint.loops.mapM parseLoop
  let loops := sortWith
    (fun left right => compareOrdinal left.controlInvocationKey right.controlInvocationKey)
    parsedLoops
  assertCheckpoint (decide (loops.map LoopState.controlInvocationKey).Nodup)
    "loop control invocation keys must be unique"
  assertCheckpoint
    (joins.all fun join => !loops.any fun loop => loop.loopId == join.joinId)
    "a node cannot be both a join and a loop"
  let readySet ← sortedUnique checkpoint.readySet "readySet"
  assertCheckpoint (readySet == readyKeys invocations) "readySet disagrees with invocation state"
  let records :=
    { checkpoint with invocations := invocations, joins := joins, loops := loops }
  assertInvocationControls records
  assertIterationBudget records
  let admittedInvocationKeys ← sortedUnique checkpoint.admittedInvocationKeys
    "admittedInvocationKeys"
  let branchSelections ← parseBranchSelections invocations checkpoint.branchSelections
  pure
    { records with
      readySet := readySet
      admittedInvocationKeys := admittedInvocationKeys
      branchSelections := branchSelections }

def parseCheckpoint (checkpoint : WorkflowCheckpoint) : EngineResult WorkflowCheckpoint :=
  match (do
      assertBoundedCheckpointJson checkpoint.toJson
      parseCheckpointRecord checkpoint) with
  | Except.ok parsed => Except.ok parsed
  | Except.error error =>
      if error.code != .workflowIdentityInvalid then Except.error error
      else fail .checkpointInvalid error.message

def reconstructReadySet (invocations : List InvocationState) : List String :=
  sortOrdinal (readyKeys invocations)

def createCheckpoint (workflowVersionId : String) (iterationBudget : Nat)
    (nextEventSequence : Option Nat) : EngineResult WorkflowCheckpoint := do
  assertPersistedWorkflowVersionId workflowVersionId
  assertCheckpoint (isInteger iterationBudget) "iterationBudget is invalid"
  assertCheckpoint (nextEventSequence.all fun next => isInteger next && 0 < next)
    "nextEventSequence is invalid"
  pure
    { workflowVersionId := workflowVersionId
      revision := 0
      runStatus := .queued
      nextEventSequence := nextEventSequence.getD 2
      readySet := []
      admittedInvocationKeys := []
      invocations := []
      joins := []
      loops := []
      remainingIterationBudget := iterationBudget
      cancelRequested := false
      deadlineExpired := false
      branchSelections := []
      initialIterationBudget := some iterationBudget }

end Engine
end Pertexo
