import Pertexo.Engine.Execution
import Pertexo.Values.Text

/-!
# Checkpoints as JSON

## Instants

Instants are written in the extended calendar form with milliseconds.
-/

namespace Pertexo
namespace Engine

open Values

def decimal (width n : Nat) : String :=
  padStart width '0' (toString n)

/-- Year, month and day of the day that many days after the first of March of year 0. -/
def civilFromDays (days : Nat) : Nat × Nat × Nat :=
  let era := days / 146097
  let dayOfEra := days % 146097
  let yearOfEra := (dayOfEra - dayOfEra / 1460 + dayOfEra / 36524 - dayOfEra / 146096) / 365
  let dayOfYear := dayOfEra - (365 * yearOfEra + yearOfEra / 4 - yearOfEra / 100)
  let shiftedMonth := (5 * dayOfYear + 2) / 153
  let day := dayOfYear - (153 * shiftedMonth + 2) / 5 + 1
  let month := if shiftedMonth < 10 then shiftedMonth + 3 else shiftedMonth - 9
  let year := yearOfEra + era * 400
  (if month <= 2 then year + 1 else year, month, day)

def toISOString (instant : Timestamp) : String :=
  let (year, month, day) := civilFromDays (instant / 86400000 + 719468)
  let inDay := instant % 86400000
  decimal 4 year ++ "-" ++ decimal 2 month ++ "-" ++ decimal 2 day ++ "T" ++
    decimal 2 (inDay / 3600000) ++ ":" ++ decimal 2 (inDay / 60000 % 60) ++ ":" ++
    decimal 2 (inDay / 1000 % 60) ++ "." ++ decimal 3 (inDay % 1000) ++ "Z"

example : toISOString 1767225600123 = "2026-01-01T00:00:00.123Z" := by
  decide

/-!
## Records
-/

def jsonNat (n : Nat) : JsonValue :=
  .number (toString n)

def jsonStrings (texts : List String) : JsonValue :=
  .array (texts.map JsonValue.string)

def jsonObject (members : List (String × Option JsonValue)) : JsonValue :=
  .object <| members.filterMap fun member =>
    member.snd.map fun value => JsonMember.mk member.fst value

def OutputReference.toJson : OutputReference -> JsonValue
  | .inline attemptId =>
      jsonObject [("kind", some (.string "inline")), ("attemptId", some (.string attemptId))]
  | .artifact artifactId =>
      jsonObject [("kind", some (.string "artifact")), ("artifactId", some (.string artifactId))]
  | .reused nodeRunId =>
      jsonObject [("kind", some (.string "reused")), ("nodeRunId", some (.string nodeRunId))]
  | .call callId =>
      jsonObject [("kind", some (.string "call")), ("callId", some (.string callId))]
  | .task taskId =>
      jsonObject [("kind", some (.string "task")), ("taskId", some (.string taskId))]

def branchPathJson (path : BranchPath) : JsonValue :=
  .array <| path.map fun part =>
    jsonObject [("nodeId", some (.string part.nodeId)),
      ("outputPort", some (.string part.outputPort))]

def iterationPathJson (path : IterationPath) : JsonValue :=
  .array <| path.map fun part =>
    jsonObject [("loopNodeId", some (.string part.loopNodeId)),
      ("ordinal", some (jsonNat part.ordinal))]

def FailureHandling.toJson (handling : FailureHandling) : JsonValue :=
  jsonObject
    [("sinkInvocationKey", some (.string handling.sinkInvocationKey)),
      ("disposition", some <| .string <|
        match handling.disposition with
        | .pending => "pending"
        | .handled => "handled")]

def InvocationState.toJson (invocation : InvocationState) : JsonValue :=
  jsonObject
    [("invocationKey", some (.string invocation.invocationKey)),
      ("nodeId", some (.string invocation.nodeId)),
      ("status", some (.string invocation.status.text)),
      ("waitKind", invocation.waitKind.map fun kind => .string kind.text),
      ("resumeAt", invocation.resumeAt.map fun instant => .string (toISOString instant)),
      ("attemptNumber", some (jsonNat invocation.attemptNumber)),
      ("output", invocation.output.map OutputReference.toJson),
      ("failureHandling", invocation.failureHandling.map FailureHandling.toJson),
      ("branchPath", invocation.branchPath.map branchPathJson),
      ("iterationPath", invocation.iterationPath.map iterationPathJson)]

def JoinPolicy.toJson : JoinPolicy -> JsonValue
  | .all => jsonObject [("kind", some (.string "all"))]
  | .any => jsonObject [("kind", some (.string "any"))]
  | .count required =>
      jsonObject [("kind", some (.string "count")), ("count", some (jsonNat required))]

def BranchDisposition.text : BranchDisposition -> String
  | .pending => "pending"
  | .arrived => "arrived"
  | .skipped => "skipped"
  | .missing => "missing"
  | .failed => "failed"
  | .canceled => "canceled"

def UnsatisfiedReason.text : UnsatisfiedReason -> String
  | .branchFailed => "branch_failed"
  | .branchCanceled => "branch_canceled"
  | .insufficientArrivals => "insufficient_arrivals"

def BranchLedgerEntry.toJson (entry : BranchLedgerEntry) : JsonValue :=
  jsonObject
    [("branchId", some (.string entry.branchId)),
      ("disposition", some (.string entry.disposition.text)),
      ("output", entry.output.map OutputReference.toJson)]

def JoinState.toJson (join : JoinState) : JsonValue :=
  jsonObject
    [("joinInvocationKey", some (.string join.joinInvocationKey)),
      ("joinId", some (.string join.joinId)),
      ("branchPath", some (branchPathJson join.branchPath)),
      ("iterationPath", some (iterationPathJson join.iterationPath)),
      ("policy", some join.policy.toJson),
      ("ledger", some (.array (join.ledger.map BranchLedgerEntry.toJson))),
      ("selectedBranchIds", join.selectedBranchIds.map jsonStrings),
      ("unsatisfiedReasonCode", join.unsatisfiedReasonCode.map fun reason => .string reason.text)]

def LoopState.toJson (loop : LoopState) : JsonValue :=
  jsonObject
    [("controlInvocationKey", some (.string loop.controlInvocationKey)),
      ("loopId", some (.string loop.loopId)),
      ("branchPath", some (branchPathJson loop.branchPath)),
      ("iterationPath", some (iterationPathJson loop.iterationPath)),
      ("bodyRootNodeIds", some (jsonStrings loop.bodyRootNodeIds)),
      ("bodySinkNodeId", some (.string loop.bodySinkNodeId)),
      ("terminalStatus", loop.terminalStatus.map fun status => .string status.text),
      ("collection", some loop.collection.toJson),
      ("collectionChecksum", some (.string loop.collectionChecksum)),
      ("collectionSize", some (jsonNat loop.collectionSize)),
      ("maxConcurrency", some (jsonNat loop.maxConcurrency)),
      ("maxIterations", some (jsonNat loop.maxIterations)),
      ("nextOrdinal", some (jsonNat loop.nextOrdinal)),
      ("completedPrefix", some (jsonNat loop.completedPrefix)),
      ("activeOrdinals", some (.array (loop.activeOrdinals.map jsonNat))),
      ("terminalOrdinals", some (.array (loop.terminalOrdinals.map jsonNat)))]

def BranchSelection.toJson (selection : BranchSelection) : JsonValue :=
  jsonObject
    [("invocationKey", some (.string selection.invocationKey)),
      ("nodeId", some (.string selection.nodeId)),
      ("selectedOutputPort", some (.string selection.selectedOutputPort))]

def WorkflowCheckpoint.toJson (checkpoint : WorkflowCheckpoint) : JsonValue :=
  jsonObject
    [("workflowVersionId", some (.string checkpoint.workflowVersionId)),
      ("revision", some (jsonNat checkpoint.revision)),
      ("runStatus", some (.string checkpoint.runStatus.text)),
      ("nextEventSequence", some (jsonNat checkpoint.nextEventSequence)),
      ("readySet", some (jsonStrings checkpoint.readySet)),
      ("admittedInvocationKeys", some (jsonStrings checkpoint.admittedInvocationKeys)),
      ("invocations", some (.array (checkpoint.invocations.map InvocationState.toJson))),
      ("joins", some (.array (checkpoint.joins.map JoinState.toJson))),
      ("loops", some (.array (checkpoint.loops.map LoopState.toJson))),
      ("remainingIterationBudget", some (jsonNat checkpoint.remainingIterationBudget)),
      ("cancelRequested", some (.bool checkpoint.cancelRequested)),
      ("deadlineExpired", some (.bool checkpoint.deadlineExpired)),
      ("branchSelections",
        some (.array (checkpoint.branchSelections.map BranchSelection.toJson))),
      ("initialIterationBudget", checkpoint.initialIterationBudget.map jsonNat),
      ("retiredIterationBudget", checkpoint.retiredIterationBudget.map jsonNat)]

/-!
## Bounds of stored checkpoints
-/

structure CheckpointLimits where
  bytes : Nat
  depth : Nat
  members : Nat
  arrayItems : Nat

def workflowCheckpointLimits : CheckpointLimits :=
  { bytes := 262144, depth := 64, members := 10000, arrayItems := 10000 }

def assertCheckpoint (condition : Bool) (message : String) : EngineResult Unit :=
  assertThat condition .checkpointInvalid message

structure JsonUsage where
  bytes : Nat := 0
  members : Nat := 0
deriving DecidableEq, Repr

def JsonUsage.addBytes (usage : JsonUsage) (added : Nat) : EngineResult JsonUsage := do
  assertCheckpoint (usage.bytes + added <= workflowCheckpointLimits.bytes)
    "checkpoint exceeds maximum bytes"
  pure { usage with bytes := usage.bytes + added }

def JsonUsage.addMember (usage : JsonUsage) : EngineResult JsonUsage := do
  assertCheckpoint (usage.members + 1 <= workflowCheckpointLimits.members)
    "checkpoint exceeds maximum members"
  pure { usage with members := usage.members + 1 }

def scanItems (usage : JsonUsage) (items : List JsonValue) : EngineResult JsonUsage :=
  items.foldlM (fun usage _ => usage.addMember) usage

def scanMember (usage : JsonUsage) (member : JsonMember × Nat) : EngineResult JsonUsage := do
  let counted ← usage.addMember
  let separated ← if member.snd == 0 then pure counted else counted.addBytes 1
  separated.addBytes (jsonStringByteLength member.fst.name + 1)

def assertDepth (depth : Nat) : EngineResult Unit :=
  assertCheckpoint (depth <= workflowCheckpointLimits.depth) "checkpoint exceeds maximum depth"

mutual

/-- The last child of a container is visited first, as from a stack. -/
def measureJson (depth : Nat) (usage : JsonUsage) : JsonValue -> EngineResult JsonUsage
  | .null => usage.addBytes 4
  | .bool value => usage.addBytes (if value then 4 else 5)
  | .number text => usage.addBytes text.length
  | .string text => usage.addBytes (jsonStringByteLength text)
  | .array items => do
      assertDepth depth
      assertCheckpoint (items.length <= workflowCheckpointLimits.arrayItems)
        "checkpoint array is oversized"
      let opened ← usage.addBytes (2 + (items.length - 1))
      let scanned ← scanItems opened items
      measureItems (depth + 1) scanned items
  | .object members => do
      assertDepth depth
      let opened ← usage.addBytes 2
      let scanned ← members.zipIdx.foldlM scanMember opened
      measureMembers (depth + 1) scanned members

def measureItems (depth : Nat) (usage : JsonUsage) :
    List JsonValue -> EngineResult JsonUsage
  | [] => Except.ok usage
  | item :: rest => do
      let measured ← measureItems depth usage rest
      measureJson depth measured item

def measureMembers (depth : Nat) (usage : JsonUsage) :
    List JsonMember -> EngineResult JsonUsage
  | [] => Except.ok usage
  | .mk _ value :: rest => do
      let measured ← measureMembers depth usage rest
      measureJson depth measured value

end

def assertBoundedCheckpointJson (value : JsonValue) : EngineResult Unit := do
  let _ ← measureJson 1 {} value
  pure ()

end Engine
end Pertexo
