import Pertexo.Engine.ScheduledPasses

/-!
# Scopes of checkpoints

## Reading a checkpoint

Reading a checkpoint sorts its records and completes their scopes, and keeps
every scope and every loop.
-/

namespace Pertexo
namespace Engine

open Library
open Values

theorem normalizeScope_scope (invocation : InvocationState) :
    invocation.normalizeScope.scope = invocation.scope := by
  unfold InvocationState.normalizeScope
  split
  · rfl
  · rfl

theorem normalizeScope_eq (invocation : InvocationState) :
    invocation.normalizeScope.invocationKey = invocation.invocationKey ∧
      invocation.normalizeScope.attemptNumber = invocation.attemptNumber ∧
      invocation.normalizeScope.status = invocation.status ∧
      invocation.normalizeScope.waitKind = invocation.waitKind := by
  unfold InvocationState.normalizeScope
  split
  · exact ⟨rfl, rfl, rfl, rfl⟩
  · exact ⟨rfl, rfl, rfl, rfl⟩

theorem parseScopedInvocation_eq {workflowVersionId : String}
    {invocation parsed : InvocationState}
    (h : parseScopedInvocation workflowVersionId invocation = Except.ok parsed) :
    parsed = invocation.normalizeScope := by
  unfold parseScopedInvocation at h
  rcases exists_of_bind_eq_ok h with ⟨_, _, h⟩
  rcases exists_of_bind_eq_ok h with ⟨_, _, h⟩
  rcases exists_of_bind_eq_ok h with ⟨_, _, h⟩
  rcases exists_of_bind_eq_ok h with ⟨_, _, h⟩
  rcases exists_of_bind_eq_ok h with ⟨_, _, h⟩
  cases h
  rfl

@[simp] theorem assertCheckpoint_eq_ok_iff {condition : Bool} {message : String} {u : Unit} :
    assertCheckpoint condition message = Except.ok u ↔ condition = true :=
  assertThat_eq_ok_iff

/-- The ordinals of a loop are accounted for, and its active ones fit its concurrency. -/
structure LoopState.IsAccounted (loop : LoopState) : Prop where
  nextOrdinal_le : loop.nextOrdinal ≤ loop.collectionSize
  active_le : loop.activeOrdinals.length ≤ loop.maxConcurrency
  nodup : (loop.activeOrdinals ++ loop.terminalOrdinals).Nodup
  window : forall ordinal, ordinal ∈ loop.activeOrdinals ++ loop.terminalOrdinals ↔
    loop.completedPrefix ≤ ordinal ∧ ordinal < loop.nextOrdinal

theorem parseLoopOrdinals_spec {loop parsed : LoopState}
    (h : parseLoopOrdinals loop = Except.ok parsed) :
    parsed =
        { loop with
          activeOrdinals := sortOrdinals loop.activeOrdinals
          terminalOrdinals := sortOrdinals loop.terminalOrdinals } ∧
      parsed.activeOrdinals.length ≤ parsed.maxConcurrency ∧
      (parsed.activeOrdinals ++ parsed.terminalOrdinals).Nodup ∧
      forall ordinal, ordinal ∈ parsed.activeOrdinals ++ parsed.terminalOrdinals ↔
        ordinal ∈ (List.range (parsed.nextOrdinal - parsed.completedPrefix)).map fun index =>
          parsed.completedPrefix + index := by
  unfold parseLoopOrdinals at h
  dsimp only at h
  rcases exists_of_bind_eq_ok h with ⟨_, _, h⟩
  rcases exists_of_bind_eq_ok h with ⟨_, hnodup, h⟩
  rcases exists_of_bind_eq_ok h with ⟨_, hlength, h⟩
  rcases exists_of_bind_eq_ok h with ⟨_, hrange, h⟩
  cases h
  rw [assertCheckpoint_eq_ok_iff] at hnodup hlength hrange
  refine ⟨rfl, of_decide_eq_true hlength, of_decide_eq_true hnodup, ?_⟩
  intro ordinal
  have heq := eq_of_beq hrange
  rw [← heq]
  exact mem_sortWith.symm

theorem parseLoop_spec {loop parsed : LoopState} (h : parseLoop loop = Except.ok parsed) :
    parsed.Narrows loop ∧ parsed.IsAccounted ∧
      parsed.collectionSize = loop.collectionSize := by
  unfold parseLoop at h
  rcases exists_of_bind_eq_ok h with ⟨_, _, h⟩
  rcases exists_of_bind_eq_ok h with ⟨collection, _, h⟩
  rcases exists_of_bind_eq_ok h with ⟨_, _, h⟩
  rcases exists_of_bind_eq_ok h with ⟨_, _, h⟩
  rcases exists_of_bind_eq_ok h with ⟨_, _, h⟩
  rcases exists_of_bind_eq_ok h with ⟨_, _, h⟩
  rcases exists_of_bind_eq_ok h with ⟨roots, hroots, h⟩
  rcases exists_of_bind_eq_ok h with ⟨_, _, h⟩
  rcases exists_of_bind_eq_ok h with ⟨_, _, h⟩
  rcases exists_of_bind_eq_ok h with ⟨_, _, h⟩
  rcases exists_of_bind_eq_ok h with ⟨_, hbounds, h⟩
  rcases parseLoopOrdinals_spec h with ⟨hparsed, hlength, hnodup, hwindow⟩
  have hsorted : roots.Perm loop.bodyRootNodeIds := by
    unfold sortedUnique at hroots
    rcases exists_of_bind_eq_ok hroots with ⟨_, _, hroots⟩
    rcases exists_of_bind_eq_ok hroots with ⟨_, _, hroots⟩
    cases hroots
    exact perm_sortWith _ _
  have hbound : loop.completedPrefix ≤ loop.nextOrdinal ∧
      loop.nextOrdinal ≤ loop.collectionSize := by
    unfold assertLoopBounds at hbounds
    rcases exists_of_bind_eq_ok hbounds with ⟨_, _, hbounds⟩
    rcases exists_of_bind_eq_ok hbounds with ⟨_, _, hbounds⟩
    rcases exists_of_bind_eq_ok hbounds with ⟨_, _, hbounds⟩
    rcases exists_of_bind_eq_ok hbounds with ⟨_, _, hbounds⟩
    rcases exists_of_bind_eq_ok hbounds with ⟨_, _, hbounds⟩
    rcases exists_of_bind_eq_ok hbounds with ⟨_, hleading, hbounds⟩
    rcases exists_of_bind_eq_ok hbounds with ⟨_, _, hbounds⟩
    rcases exists_of_bind_eq_ok hbounds with ⟨_, _, hbounds⟩
    rcases exists_of_bind_eq_ok hbounds with ⟨_, _, hbounds⟩
    rcases exists_of_bind_eq_ok hbounds with ⟨_, _, hbounds⟩
    rcases exists_of_bind_eq_ok hbounds with ⟨_, hcursor, _⟩
    rw [assertCheckpoint_eq_ok_iff] at hleading hcursor
    exact ⟨of_decide_eq_true hleading, of_decide_eq_true hcursor⟩
  rw [hparsed] at hlength hnodup hwindow ⊢
  refine ⟨⟨⟨rfl, rfl, rfl, rfl, rfl, ?_⟩, hsorted, ?_, fun _ hstatus => Or.inl hstatus, rfl, rfl⟩,
    ⟨hbound.right, hlength, hnodup, ?_⟩, rfl⟩
  · intro ordinal hmem
    exact mem_sortWith.mp hmem
  · intro ordinal hmem
    exact Or.inl (mem_sortWith.mp hmem)
  · intro ordinal
    rw [hwindow ordinal, List.mem_map]
    constructor
    · rintro ⟨index, hindex, rfl⟩
      have hlt := List.mem_range.mp hindex
      dsimp only at hlt ⊢
      omega
    · rintro ⟨hle, hlt⟩
      dsimp only at hle hlt ⊢
      exact ⟨ordinal - loop.completedPrefix, List.mem_range.mpr (by omega), by omega⟩

/-- The checkpoint conserves its initial iteration budget. -/
def ConservesBudget (checkpoint : WorkflowCheckpoint) : Prop :=
  forall initial, checkpoint.initialIterationBudget = some initial ->
    checkpoint.remainingIterationBudget + checkpoint.retiredIterationBudget.getD 0 +
      totalCollectionSize checkpoint.loops = initial

/-- What reading a checkpoint keeps, and what it has checked. -/
structure ParsedFrom (source parsed : WorkflowCheckpoint) : Prop where
  workflowVersionId : parsed.workflowVersionId = source.workflowVersionId
  initialIterationBudget : parsed.initialIterationBudget = source.initialIterationBudget
  cancelRequested : parsed.cancelRequested = source.cancelRequested
  runStatus : parsed.runStatus = source.runStatus
  records : SameRecords source.invocations source.loops parsed.invocations parsed.loops
  invocations_nodup : (parsed.invocations.map InvocationState.invocationKey).Nodup
  loops_nodup : (parsed.loops.map LoopState.controlInvocationKey).Nodup
  joins_nodup : (parsed.joins.map JoinState.joinInvocationKey).Nodup
  accounted : forall loop, loop ∈ parsed.loops -> loop.IsAccounted
  budget : ConservesBudget parsed
  invocations : exists normalized, parsed.invocations.Perm normalized ∧
    normalized = source.invocations.map InvocationState.normalizeScope
  waits : forall invocation, invocation ∈ parsed.invocations ->
    invocation.status = .running -> invocation.waitKind = none
  controls : forall loop, loop ∈ parsed.loops -> exists parent, parent ∈ parsed.invocations ∧
    parent.invocationKey = loop.controlInvocationKey ∧
    loopParentStatusIsConsistent loop parent parsed.cancelRequested parsed.deadlineExpired = true

theorem waitIsValid_of_parseScopedInvocation {workflowVersionId : String}
    {invocation parsed : InvocationState}
    (h : parseScopedInvocation workflowVersionId invocation = Except.ok parsed) :
    waitIsValid invocation.status invocation.waitKind invocation.resumeAt = true := by
  unfold parseScopedInvocation at h
  rcases exists_of_bind_eq_ok h with ⟨_, hparse, _⟩
  unfold parseInvocation at hparse
  rcases exists_of_bind_eq_ok hparse with ⟨_, _, hparse⟩
  rcases exists_of_bind_eq_ok hparse with ⟨_, _, hparse⟩
  rcases exists_of_bind_eq_ok hparse with ⟨_, _, hparse⟩
  rcases exists_of_bind_eq_ok hparse with ⟨_, _, hparse⟩
  rcases exists_of_bind_eq_ok hparse with ⟨_, _, hparse⟩
  rcases exists_of_bind_eq_ok hparse with ⟨_, hwait, _⟩
  exact assertCheckpoint_eq_ok_iff.mp hwait

theorem waitKind_of_running {invocation : InvocationState}
    (hvalid : waitIsValid invocation.status invocation.waitKind invocation.resumeAt = true)
    (hrunning : invocation.status = .running) : invocation.waitKind = none := by
  rw [hrunning] at hvalid
  cases hkind : invocation.waitKind with
  | none => rfl
  | some kind =>
      rw [hkind] at hvalid
      cases kind <;> cases hvalid

theorem parent_of_assertLoopParent {checkpoint : WorkflowCheckpoint} {loop : LoopState} {u : Unit}
    (h : assertLoopParent checkpoint loop = Except.ok u) :
    exists parent, parent ∈ checkpoint.invocations ∧
      parent.invocationKey = loop.controlInvocationKey ∧
      loopParentStatusIsConsistent loop parent checkpoint.cancelRequested
        checkpoint.deadlineExpired = true := by
  unfold assertLoopParent at h
  split at h
  · cases assertCheckpoint_eq_ok_iff.mp h
  · rename_i parent hfind
    refine ⟨parent, List.mem_of_find?_eq_some hfind, ?_, assertCheckpoint_eq_ok_iff.mp h⟩
    simpa using List.find?_some hfind

theorem mapM_parseScopedInvocation {workflowVersionId : String}
    {invocations parsed : List InvocationState}
    (h : invocations.mapM (parseScopedInvocation workflowVersionId) = Except.ok parsed) :
    parsed = invocations.map InvocationState.normalizeScope := by
  have hpairs := mapM_eq_ok_iff.mp h
  clear h
  induction hpairs with
  | nil => rfl
  | cons hhead _ ih => rw [List.map_cons, ih, parseScopedInvocation_eq hhead]

theorem scopesOf_normalized {invocations parsed : List InvocationState}
    (h : parsed.Perm (invocations.map InvocationState.normalizeScope)) :
    scopesOf parsed = scopesOf invocations := by
  ext scope
  constructor
  · rintro ⟨invocation, hmem, rfl⟩
    rcases List.mem_map.mp (h.mem_iff.mp hmem) with ⟨source, hsource, rfl⟩
    exact ⟨source, hsource, (normalizeScope_scope source).symm⟩
  · rintro ⟨invocation, hmem, rfl⟩
    exact ⟨invocation.normalizeScope, h.mem_iff.mpr (List.mem_map_of_mem hmem),
      normalizeScope_scope invocation⟩

theorem parsedFrom_of_parseCheckpointRecord {source parsed : WorkflowCheckpoint}
    (h : parseCheckpointRecord source = Except.ok parsed) : ParsedFrom source parsed := by
  unfold parseCheckpointRecord at h
  rcases exists_of_bind_eq_ok h with ⟨_, _, h⟩
  rcases exists_of_bind_eq_ok h with ⟨_, _, h⟩
  rcases exists_of_bind_eq_ok h with ⟨_, _, h⟩
  rcases exists_of_bind_eq_ok h with ⟨_, _, h⟩
  rcases exists_of_bind_eq_ok h with ⟨invocations, hinvocations, h⟩
  rcases exists_of_bind_eq_ok h with ⟨_, hinvocationKeys, h⟩
  rcases exists_of_bind_eq_ok h with ⟨joins, _, h⟩
  rcases exists_of_bind_eq_ok h with ⟨_, hjoinKeys, h⟩
  rcases exists_of_bind_eq_ok h with ⟨loops, hloops, h⟩
  rcases exists_of_bind_eq_ok h with ⟨_, hloopKeys, h⟩
  rcases exists_of_bind_eq_ok h with ⟨_, _, h⟩
  rcases exists_of_bind_eq_ok h with ⟨_, _, h⟩
  rcases exists_of_bind_eq_ok h with ⟨_, _, h⟩
  rcases exists_of_bind_eq_ok h with ⟨_, hcontrols, h⟩
  rcases exists_of_bind_eq_ok h with ⟨_, hbudget, h⟩
  rcases exists_of_bind_eq_ok h with ⟨_, _, h⟩
  rcases exists_of_bind_eq_ok h with ⟨_, _, h⟩
  cases h
  rw [assertCheckpoint_eq_ok_iff, decide_eq_true_eq] at hinvocationKeys hloopKeys hjoinKeys
  have hnormalized := mapM_parseScopedInvocation hinvocations
  have hsortedInvocations : (sortInvocations invocations).Perm
      (source.invocations.map InvocationState.normalizeScope) := by
    rw [← hnormalized]
    exact perm_sortWith _ _
  have hmemLoops : forall loop, loop ∈ sortWith
      (fun left right : LoopState =>
        compareOrdinal left.controlInvocationKey right.controlInvocationKey) loops ↔
      loop ∈ loops := by
    intro loop
    exact mem_sortWith
  refine ⟨rfl, rfl, rfl, rfl, ⟨scopesOf_normalized hsortedInvocations, ?_, ?_⟩, hinvocationKeys,
    hloopKeys, hjoinKeys, ?_, ?_, ⟨_, hsortedInvocations, rfl⟩, ?_, ?_⟩
  · intro loop hloop
    rcases exists_of_mem_mapM hloops ((hmemLoops loop).mp hloop) with ⟨wide, hwide, hparsed⟩
    exact ⟨wide, hwide, (parseLoop_spec hparsed).left⟩
  · intro loop hloop
    rcases exists_of_mem_of_mapM hloops hloop with ⟨narrow, hnarrow, hparsed⟩
    exact ⟨narrow, (hmemLoops narrow).mpr hnarrow, (parseLoop_spec hparsed).left⟩
  · intro loop hloop
    rcases exists_of_mem_mapM hloops ((hmemLoops loop).mp hloop) with ⟨wide, _, hparsed⟩
    exact (parseLoop_spec hparsed).right.left
  · intro initial hinitial
    unfold assertIterationBudget at hbudget
    rcases exists_of_bind_eq_ok hbudget with ⟨_, _, hbudget⟩
    rcases exists_of_bind_eq_ok hbudget with ⟨_, _, hbudget⟩
    rcases exists_of_bind_eq_ok hbudget with ⟨_, _, hbudget⟩
    rw [assertCheckpoint_eq_ok_iff] at hbudget
    have hsource : source.initialIterationBudget = some initial := hinitial
    rw [hsource] at hbudget
    exact eq_of_beq hbudget
  · intro invocation hmem hrunning
    rcases exists_of_mem_mapM hinvocations (mem_sortWith.mp hmem) with ⟨original, _, hparsed⟩
    have hvalid := waitIsValid_of_parseScopedInvocation hparsed
    have hnormalized := parseScopedInvocation_eq hparsed
    rw [hnormalized] at hrunning ⊢
    rcases normalizeScope_eq original with ⟨_, _, hstatus, hkind⟩
    rw [hkind]
    exact waitKind_of_running hvalid (hstatus.symm.trans hrunning)
  · unfold assertInvocationControls at hcontrols
    rcases exists_of_bind_eq_ok hcontrols with ⟨_, _, hrest⟩
    rcases exists_of_bind_eq_ok hrest with ⟨_, hparents, _⟩
    intro loop hloop
    exact parent_of_assertLoopParent (forM_eq_ok_iff.mp hparents loop hloop)

theorem parsedFrom_of_parseCheckpoint {source parsed : WorkflowCheckpoint}
    (h : parseCheckpoint source = Except.ok parsed) : ParsedFrom source parsed := by
  unfold parseCheckpoint at h
  split at h
  · rename_i found hfound
    cases h
    rcases exists_of_bind_eq_ok hfound with ⟨_, _, hrecord⟩
    exact parsedFrom_of_parseCheckpointRecord hrecord
  · split at h
    · cases h
    · exact absurd h fail_ne_ok

end Engine
end Pertexo
