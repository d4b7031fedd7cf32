import Pertexo.Engine.Execution
import Pertexo.Library.Sorting

/-!
# Joins and loops

What the scheduler reads off the records of joins and of loops.

## Join settlement

A join waits for every declared branch, and then decides by its policy over
the whole ledger, in the order of the branch identities.
-/

namespace Pertexo
namespace Engine

open Library
open Values

inductive JoinDecision where
  | waiting
  | satisfied (selectedBranchIds : List String) (ledger : List BranchLedgerEntry)
  | unsatisfied (reasonCode : UnsatisfiedReason) (ledger : List BranchLedgerEntry)
deriving DecidableEq, Repr

def sortLedger (ledger : List BranchLedgerEntry) : List BranchLedgerEntry :=
  sortWith (fun left right => compareOrdinal left.branchId right.branchId) ledger

def requiredArrivals (policy : JoinPolicy) (declaredBranches : Nat) : EngineResult Nat :=
  match policy with
  | .all => Except.ok 0
  | .any => Except.ok 1
  | .count count =>
      if count == 0 || declaredBranches < count then
        fail .joinInvalid "count join exceeds declared branches"
      else Except.ok count

def settleJoin (policy : JoinPolicy) (declared : List BranchLedgerEntry) :
    EngineResult JoinDecision :=
  let ledger := sortLedger declared
  if !decide (ledger.map BranchLedgerEntry.branchId).Nodup || ledger.isEmpty then
    fail .joinInvalid "a join requires unique declared branches"
  else if ledger.any fun entry => entry.disposition == .pending then
    Except.ok .waiting
  else do
    let arrived := ledger.filter fun entry => entry.disposition == .arrived
    let required ← requiredArrivals policy ledger.length
    if policy == .all && ledger.any fun entry => entry.disposition == .failed then
      pure (.unsatisfied .branchFailed ledger)
    else if policy == .all && ledger.any fun entry => entry.disposition == .canceled then
      pure (.unsatisfied .branchCanceled ledger)
    else if arrived.length < required then
      pure (.unsatisfied .insufficientArrivals ledger)
    else
      let selected := if policy == .all then arrived else arrived.take required
      pure (.satisfied (selected.map BranchLedgerEntry.branchId) ledger)

def recordBranchDisposition (ledger : List BranchLedgerEntry) (update : BranchLedgerEntry) :
    EngineResult (List BranchLedgerEntry) :=
  match ledger.find? fun entry => entry.branchId == update.branchId with
  | none => fail .joinInvalid ("branch " ++ update.branchId ++ " is not declared")
  | some existing =>
      if existing.disposition != .pending then
        if existing.disposition == update.disposition &&
            sameOutputReference existing.output update.output then
          Except.ok (sortLedger ledger)
        else
          fail .joinInvalid
            ("branch " ++ update.branchId ++ " already has a terminal disposition")
      else
        Except.ok <| sortLedger <| ledger.map fun entry =>
          if entry.branchId == update.branchId then update else entry

/-!
## Loop scheduling

A loop keeps a window of ordinals: the settled prefix below it, and inside it
the active and the terminal ordinals.
-/

structure LoopAdmission where
  loop : LoopState
  admittedOrdinals : List Nat
deriving DecidableEq, Repr

def sortOrdinals (ordinals : List Nat) : List Nat :=
  sortWith compare ordinals

def createLoopState (input : LoopStartedObservation) (remainingIterationBudget : Nat) :
    EngineResult LoopState :=
  if input.maxIterations == 0 || input.maxConcurrency == 0 then
    fail .loopStateInvalid "loop bounds must be positive integers"
  else if input.maxIterations < input.maxConcurrency ||
      input.maxIterations < input.collectionSize ||
      remainingIterationBudget < input.collectionSize then
    fail .loopLimitExceeded "collection exceeds pinned loop limits"
  else
    Except.ok
      { controlInvocationKey := input.controlInvocationKey
        loopId := input.loopId
        branchPath := input.branchPath
        iterationPath := input.iterationPath
        bodyRootNodeIds := input.bodyRootNodeIds
        bodySinkNodeId := input.bodySinkNodeId
        collection := input.collection
        collectionChecksum := input.collectionChecksum
        collectionSize := input.collectionSize
        maxConcurrency := input.maxConcurrency
        maxIterations := input.maxIterations
        nextOrdinal := 0
        completedPrefix := 0
        activeOrdinals := []
        terminalOrdinals := [] }

/-- Admits iterations up to the concurrency; the run budget was spent at the start. -/
def admitLoopIterations (loop : LoopState) : EngineResult LoopAdmission :=
  let active := sortOrdinals loop.activeOrdinals
  let terminal := sortOrdinals loop.terminalOrdinals
  let all := active ++ terminal
  if !decide all.Nodup ||
      all.any (fun ordinal => ordinal < loop.completedPrefix || loop.collectionSize <= ordinal)
  then
    fail .loopStateInvalid "loop ordinals are inconsistent"
  else
    let capacity := loop.maxConcurrency - active.length
    let available := min capacity (loop.collectionSize - loop.nextOrdinal)
    let admittedOrdinals := (List.range available).map fun offset => loop.nextOrdinal + offset
    Except.ok
      { loop :=
          { loop with
            activeOrdinals := active ++ admittedOrdinals
            terminalOrdinals := terminal
            nextOrdinal := loop.nextOrdinal + admittedOrdinals.length }
        admittedOrdinals := admittedOrdinals }

def completeLoopIteration (loop : LoopState) (ordinal : Nat) : EngineResult LoopState :=
  if !loop.activeOrdinals.contains ordinal then
    fail .loopStateInvalid ("iteration " ++ toString ordinal ++ " is not active")
  else
    Except.ok
      { loop with
        activeOrdinals :=
          sortOrdinals (loop.activeOrdinals.filter fun current => current != ordinal)
        terminalOrdinals := sortOrdinals (loop.terminalOrdinals ++ [ordinal]) }

def LoopState.iterationScope (loop : LoopState) (ordinal : Nat) : IterationPath :=
  loop.iterationPath ++ [{ loopNodeId := loop.loopId, ordinal := ordinal }]

end Engine
end Pertexo
