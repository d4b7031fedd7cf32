import Mathlib.Logic.Relation
import Pertexo.Engine.Checkpoint
import Pertexo.Engine.InvocationKeys
import Pertexo.Engine.LoopTransitions
import Pertexo.Engine.Transition

/-!
# Scopes of invocations

What changes in a status, and what the scopes of a checkpoint keep.

## Changes of status

Between two checkpoints a status moves along the allowed transitions. Only a due
timer makes a waiting invocation ready again, before the facts are applied.
-/

namespace Pertexo
namespace Engine

def NodeChanges : NodeStatus -> NodeStatus -> Prop :=
  Relation.ReflTransGen fun source target => target ∈ nodeTransitions source

def RunChanges : RunStatus -> RunStatus -> Prop :=
  Relation.ReflTransGen fun source target => target ∈ runTransitions source

def settlingTransitions (source : NodeStatus) : List NodeStatus :=
  (nodeTransitions source).filter fun target => !(source == .waiting && target == .ready)

def NodeSettles : NodeStatus -> NodeStatus -> Prop :=
  Relation.ReflTransGen fun source target => target ∈ settlingTransitions source

/-- Statuses of invocations that only a later fact or a timer moves again. -/
def isRestingStatus (status : NodeStatus) : Bool :=
  isTerminalNodeStatus status || status == .waiting

theorem NodeChanges.of_terminal {source target : NodeStatus} (h : NodeChanges source target)
    (hterminal : isTerminalNodeStatus source = true) : target = source := by
  induction h with
  | refl => rfl
  | tail _ hstep ih =>
      have hopen := not_terminal_of_nodeTransition hstep
      rw [ih, hterminal] at hopen
      cases hopen

theorem NodeSettles.changes {source target : NodeStatus} (h : NodeSettles source target) :
    NodeChanges source target := by
  induction h with
  | refl => exact Relation.ReflTransGen.refl
  | tail _ hstep ih => exact ih.tail (List.mem_filter.mp hstep).left

theorem isResting_of_settling {source target : NodeStatus}
    (h : target ∈ settlingTransitions source)
    (hsource : isRestingStatus source = true ∨ source = .running) :
    isRestingStatus target = true := by
  revert h hsource
  cases source <;> cases target <;> decide

theorem NodeSettles.resting {source target : NodeStatus} (h : NodeSettles source target)
    (hresting : isRestingStatus source = true) : isRestingStatus target = true := by
  induction h with
  | refl => exact hresting
  | tail _ hstep ih => exact isResting_of_settling hstep (Or.inl ih)

theorem NodeSettles.of_running {source target : NodeStatus} (h : NodeSettles source target)
    (hrunning : source = .running) : target = .running ∨ isRestingStatus target = true := by
  induction h with
  | refl => exact Or.inl hrunning
  | tail _ hstep ih =>
      rcases ih with hsame | hresting
      · exact Or.inr (isResting_of_settling hstep (Or.inr hsame))
      · exact Or.inr (isResting_of_settling hstep (Or.inl hresting))

theorem NodeSettles.mem_of_running {target : NodeStatus} (h : NodeSettles .running target) :
    target = .running ∨ target ∈ nodeTransitions .running := by
  induction h with
  | refl => exact Or.inl rfl
  | @tail middle target _ hstep ih =>
      revert hstep ih
      cases middle <;> cases target <;> decide

theorem NodeSettles.single {source target : NodeStatus} (h : target ∈ nodeTransitions source)
    (hresting : isRestingStatus target = true) : NodeSettles source target := by
  apply Relation.ReflTransGen.single
  have hnotReady : (target == NodeStatus.ready) = false := by
    cases target <;> first | rfl | cases hresting
  exact List.mem_filter.mpr ⟨h, by simp [hnotReady]⟩

theorem isResting_of_mem_running {target : NodeStatus} (h : target ∈ nodeTransitions .running) :
    isRestingStatus target = true := by
  revert h
  cases target <;> decide

theorem NodeSettles.of_open {source target : NodeStatus}
    (hopen : isTerminalNodeStatus source = false) (htarget : target ∈ nodeTransitions .running) :
    NodeSettles source target := by
  have hrunning : NodeSettles .running target :=
    NodeSettles.single htarget (isResting_of_mem_running htarget)
  have hready : NodeSettles .ready target :=
    Relation.ReflTransGen.head (show NodeStatus.running ∈ settlingTransitions .ready by decide)
      hrunning
  cases source with
  | pending =>
      exact Relation.ReflTransGen.head
        (show NodeStatus.ready ∈ settlingTransitions .pending by decide) hready
  | ready => exact hready
  | running => exact hrunning
  | waiting =>
      by_cases hsame : target = .waiting
      · rw [hsame]
        exact Relation.ReflTransGen.refl
      · apply NodeSettles.single _ (isResting_of_mem_running htarget)
        revert htarget hsame
        cases target <;> decide
  | succeeded => cases hopen
  | failed => cases hopen
  | skipped => cases hopen
  | canceled => cases hopen
  | timedOut => cases hopen
  | outcomeUnknown => cases hopen

theorem mem_running_of_loopTerminal {status : NodeStatus}
    (h : isLoopTerminalStatus status = true) : status ∈ nodeTransitions .running := by
  revert h
  cases status <;> decide

theorem isTerminal_of_loopTerminal {status : NodeStatus} (h : isLoopTerminalStatus status = true) :
    isTerminalNodeStatus status = true := by
  revert h
  cases status <;> decide

/-- A terminal status that is not a success or a skip stops its loop. -/
theorem isLoopTerminal_of_terminal {status : NodeStatus}
    (hterminal : isTerminalNodeStatus status = true) (h : settlesNormally status = false) :
    isLoopTerminalStatus status = true := by
  revert hterminal h
  cases status <;> decide

/-!
## Scopes and windows of a state
-/

open Library
open Values

def scopesOf (invocations : List InvocationState) : Set InvocationScope :=
  { scope | exists invocation, invocation ∈ invocations ∧ invocation.scope = scope }

def windowsOf (loops : List LoopState) : Set LoopScope :=
  { window | exists loop, loop ∈ loops ∧ loop.window = window }

theorem mem_scopesOf {invocations : List InvocationState} {invocation : InvocationState}
    (h : invocation ∈ invocations) : invocation.scope ∈ scopesOf invocations :=
  ⟨invocation, h, rfl⟩

theorem mem_windowsOf {loops : List LoopState} {loop : LoopState} (h : loop ∈ loops) :
    loop.window ∈ windowsOf loops :=
  ⟨loop, h, rfl⟩

theorem windows_keyed {loops : List LoopState}
    (h : (loops.map LoopState.controlInvocationKey).Nodup) :
    forall w, w ∈ windowsOf loops -> forall v, v ∈ windowsOf loops -> w.key = v.key -> w = v := by
  rintro w ⟨loop, hloop, rfl⟩ v ⟨other, hother, rfl⟩ hkey
  rw [List.inj_on_of_nodup_map h hloop hother hkey]

namespace WorkflowTransition

def scopes (state : WorkflowTransition) : Set InvocationScope :=
  scopesOf state.invocations.items

def windows (state : WorkflowTransition) : Set LoopScope :=
  windowsOf state.loops.items

end WorkflowTransition

structure LoopState.Narrows (narrow wide : LoopState) : Prop where
  window : narrow.window.Narrows wide.window
  bodyRootNodeIds : narrow.bodyRootNodeIds.Perm wide.bodyRootNodeIds
  terminal : forall ordinal, ordinal ∈ narrow.terminalOrdinals ->
    ordinal ∈ wide.terminalOrdinals ∨
      (ordinal ∈ wide.activeOrdinals ∧ ordinal ∉ narrow.activeOrdinals)
  terminalStatus : forall status, narrow.terminalStatus = some status ->
    wide.terminalStatus = some status ∨ isLoopTerminalStatus status = true
  collectionSize : narrow.collectionSize = wide.collectionSize
  maxIterations : narrow.maxIterations = wide.maxIterations

theorem LoopState.Narrows.refl (loop : LoopState) : loop.Narrows loop :=
  ⟨LoopWindow.Narrows.refl _, List.Perm.refl _, fun _ h => Or.inl h, fun _ h => Or.inl h, rfl, rfl⟩

theorem LoopState.Narrows.trans {first second third : LoopState}
    (h : first.Narrows second) (h' : second.Narrows third) : first.Narrows third where
  window := h.window.trans h'.window
  bodyRootNodeIds := h.bodyRootNodeIds.trans h'.bodyRootNodeIds
  terminal := by
    intro ordinal hterminal
    rcases h.terminal ordinal hterminal with hsecond | ⟨hactive, hinactive⟩
    · rcases h'.terminal ordinal hsecond with hthird | ⟨hactive, hinactive⟩
      · exact Or.inl hthird
      · exact Or.inr ⟨hactive, fun hmem => hinactive (h.window.active ordinal hmem)⟩
    · exact Or.inr ⟨h'.window.active ordinal hactive, hinactive⟩
  terminalStatus := by
    intro status hstatus
    rcases h.terminalStatus status hstatus with hsecond | hterminal
    · exact h'.terminalStatus status hsecond
    · exact Or.inr hterminal
  collectionSize := h.collectionSize.trans h'.collectionSize
  maxIterations := h.maxIterations.trans h'.maxIterations

/-- No invocation and no loop is added or removed; loops may settle ordinals. -/
structure SameScopes (before after : WorkflowTransition) : Prop where
  scopes : after.scopes = before.scopes
  narrows : forall loop, loop ∈ after.loops ->
    exists wide, wide ∈ before.loops ∧ loop.Narrows wide
  narrowed : forall loop, loop ∈ before.loops ->
    exists narrow, narrow ∈ after.loops ∧ narrow.Narrows loop
  current : after.current = before.current
  graph : after.graph = before.graph
  run : RunChanges before.runStatus after.runStatus

/-- An invocation runs on only as the attempt it was, or as a later one. -/
structure Continues (before after : InvocationState) : Prop where
  key : after.invocationKey = before.invocationKey
  attempts : before.attemptNumber ≤ after.attemptNumber
  changes : NodeChanges before.status after.status
  runs : after.status = .running ->
    before.attemptNumber < after.attemptNumber ∨ before.status = .running

/-- The same attempt, settled in part; only a running invocation runs on. -/
structure Progresses (before after : InvocationState) : Prop where
  key : after.invocationKey = before.invocationKey
  attempt : after.attemptNumber = before.attemptNumber
  settles : NodeSettles before.status after.status
  runs : after.status = .running ->
    before.status = .running ∧ after.waitKind = before.waitKind

def KeepsInvocations (R : InvocationState -> InvocationState -> Prop)
    (before after : WorkflowTransition) : Prop :=
  forall invocation, invocation ∈ before.invocations ->
    exists kept, kept ∈ after.invocations ∧ R invocation kept

structure Quiet (before after : WorkflowTransition) : Prop extends SameScopes before after where
  progress : KeepsInvocations Progresses before after

theorem Continues.refl (invocation : InvocationState) : Continues invocation invocation :=
  ⟨rfl, Nat.le_refl _, Relation.ReflTransGen.refl, Or.inr⟩

theorem Continues.trans {first second third : InvocationState} (h : Continues first second)
    (h' : Continues second third) : Continues first third where
  key := h'.key.trans h.key
  attempts := h.attempts.trans h'.attempts
  changes := h.changes.trans h'.changes
  runs := by
    intro hthird
    rcases h'.runs hthird with hlater | hsecond
    · exact Or.inl (Nat.lt_of_le_of_lt h.attempts hlater)
    · rcases h.runs hsecond with hlater | hfirst
      · exact Or.inl (Nat.lt_of_lt_of_le hlater h'.attempts)
      · exact Or.inr hfirst

theorem Progresses.refl (invocation : InvocationState) : Progresses invocation invocation :=
  ⟨rfl, rfl, Relation.ReflTransGen.refl, fun hrunning => ⟨hrunning, rfl⟩⟩

theorem Progresses.trans {first second third : InvocationState} (h : Progresses first second)
    (h' : Progresses second third) : Progresses first third where
  key := h'.key.trans h.key
  attempt := h'.attempt.trans h.attempt
  settles := h.settles.trans h'.settles
  runs := by
    intro hthird
    have hsecond := h'.runs hthird
    have hfirst := h.runs hsecond.left
    exact ⟨hfirst.left, hsecond.right.trans hfirst.right⟩

theorem Progresses.continues {before after : InvocationState} (h : Progresses before after) :
    Continues before after where
  key := h.key
  attempts := h.attempt.ge
  changes := h.settles.changes
  runs := fun hrunning => Or.inr (h.runs hrunning).left

theorem Progresses.resting {before after : InvocationState} (h : Progresses before after)
    (hresting : isRestingStatus before.status = true) : isRestingStatus after.status = true :=
  h.settles.resting hresting

theorem Progresses.running {before after : InvocationState} (h : Progresses before after)
    (hrunning : before.status = .running) :
    isRestingStatus after.status = true ∨
      (after.status = .running ∧ after.waitKind = before.waitKind) := by
  rcases h.settles.of_running hrunning with hsame | hresting
  · exact Or.inr ⟨hsame, (h.runs hsame).right⟩
  · exact Or.inl hresting

theorem Progresses.rest {before after : InvocationState} (hscope : after.scope = before.scope)
    (hattempt : after.attemptNumber = before.attemptNumber)
    (hsettles : NodeSettles before.status after.status)
    (hresting : isRestingStatus after.status = true) : Progresses before after where
  key := congrArg StepScope.key hscope
  attempt := hattempt
  settles := hsettles
  runs := by
    intro hrunning
    rw [hrunning] at hresting
    cases hresting

theorem Progresses.of_eq {before after : InvocationState} (hscope : after.scope = before.scope)
    (hattempt : after.attemptNumber = before.attemptNumber)
    (hstatus : after.status = before.status) (hkind : after.waitKind = before.waitKind) :
    Progresses before after where
  key := congrArg StepScope.key hscope
  attempt := hattempt
  settles := hstatus ▸ Relation.ReflTransGen.refl
  runs := fun hrunning => ⟨hstatus ▸ hrunning, hkind⟩

theorem SameScopes.refl (state : WorkflowTransition) : SameScopes state state :=
  ⟨rfl, fun loop h => ⟨loop, h, LoopState.Narrows.refl loop⟩,
    fun loop h => ⟨loop, h, LoopState.Narrows.refl loop⟩, rfl, rfl, Relation.ReflTransGen.refl⟩

theorem SameScopes.trans {first second third : WorkflowTransition}
    (h : SameScopes first second) (h' : SameScopes second third) : SameScopes first third where
  scopes := h'.scopes.trans h.scopes
  narrows := by
    intro loop hloop
    rcases h'.narrows loop hloop with ⟨middle, hmiddle, hnarrow⟩
    rcases h.narrows middle hmiddle with ⟨wide, hwide, hnarrow'⟩
    exact ⟨wide, hwide, hnarrow.trans hnarrow'⟩
  narrowed := by
    intro loop hloop
    rcases h.narrowed loop hloop with ⟨middle, hmiddle, hnarrow⟩
    rcases h'.narrowed middle hmiddle with ⟨narrow, hnarrowMem, hnarrow'⟩
    exact ⟨narrow, hnarrowMem, hnarrow'.trans hnarrow⟩
  current := h'.current.trans h.current
  graph := h'.graph.trans h.graph
  run := h.run.trans h'.run

theorem KeepsInvocations.trans (R : InvocationState -> InvocationState -> Prop)
    (htrans : forall a b c, R a b -> R b c -> R a c) {first second third : WorkflowTransition}
    (h : KeepsInvocations R first second) (h' : KeepsInvocations R second third) :
    KeepsInvocations R first third := by
  intro invocation hmem
  rcases h invocation hmem with ⟨middle, hmiddle, hfirst⟩
  rcases h' middle hmiddle with ⟨kept, hkept, hsecond⟩
  exact ⟨kept, hkept, htrans _ _ _ hfirst hsecond⟩

theorem KeepsInvocations.of_subset {R : InvocationState -> InvocationState -> Prop}
    (hrefl : forall a, R a a) {before after : WorkflowTransition}
    (h : forall invocation, invocation ∈ before.invocations -> invocation ∈ after.invocations) :
    KeepsInvocations R before after := by
  intro invocation hmem
  exact ⟨invocation, h invocation hmem, hrefl invocation⟩

theorem KeepsInvocations.setInvocation {R : InvocationState -> InvocationState -> Prop}
    (hrefl : forall a, R a a) {state : WorkflowTransition} {existing updated : InvocationState}
    (hexisting : existing ∈ state.invocations)
    (hkey : updated.invocationKey = existing.invocationKey) (hrelated : R existing updated) :
    KeepsInvocations R state (state.setInvocation updated) := by
  intro invocation hmem
  by_cases hsame : invocation.invocationKey = updated.invocationKey
  · have heq : invocation = existing :=
      Keyed.eq_of_mem_of_key_eq hmem hexisting (hsame.trans hkey)
    exact ⟨updated, Keyed.mem_set.mpr (Or.inl rfl), heq ▸ hrelated⟩
  · exact ⟨invocation, Keyed.mem_set.mpr (Or.inr ⟨hmem, hsame⟩), hrefl invocation⟩

theorem Quiet.refl (state : WorkflowTransition) : Quiet state state where
  toSameScopes := SameScopes.refl state
  progress := KeepsInvocations.of_subset Progresses.refl fun _ h => h

theorem Quiet.trans {first second third : WorkflowTransition} (h : Quiet first second)
    (h' : Quiet second third) : Quiet first third where
  toSameScopes := h.toSameScopes.trans h'.toSameScopes
  progress := 
    KeepsInvocations.trans Progresses (fun _ _ _ => Progresses.trans) h.progress h'.progress

/-!
## Elementary quiet steps
-/

theorem Quiet.of_eq {before after : WorkflowTransition}
    (hinvocations : after.invocations = before.invocations) (hloops : after.loops = before.loops)
    (hcurrent : after.current = before.current) (hgraph : after.graph = before.graph)
    (hrun : RunChanges before.runStatus after.runStatus) : Quiet before after where
  scopes := by
    rw [WorkflowTransition.scopes, hinvocations]
    rfl
  narrows := by
    intro loop hloop
    rw [hloops] at hloop
    exact ⟨loop, hloop, LoopState.Narrows.refl loop⟩
  narrowed := by
    intro loop hloop
    rw [hloops]
    exact ⟨loop, hloop, LoopState.Narrows.refl loop⟩
  current := hcurrent
  graph := hgraph
  run := hrun
  progress := by
    apply KeepsInvocations.of_subset Progresses.refl
    intro invocation hmem
    rw [hinvocations]
    exact hmem

theorem Quiet.addDraft (state : WorkflowTransition) (draft : EngineEventDraft) :
    Quiet state (state.addDraft draft) :=
  Quiet.of_eq rfl rfl rfl rfl Relation.ReflTransGen.refl

theorem Quiet.withDraft {before after : WorkflowTransition} (h : Quiet before after)
    (draft : EngineEventDraft) : Quiet before (after.addDraft draft) :=
  h.trans (Quiet.addDraft after draft)

theorem Quiet.setJoin (state : WorkflowTransition) (join : JoinState) :
    Quiet state (state.setJoin join) :=
  Quiet.of_eq rfl rfl rfl rfl Relation.ReflTransGen.refl

theorem scopes_setInvocation {state : WorkflowTransition} {existing updated : InvocationState}
    (hexisting : existing ∈ state.invocations) (hscope : updated.scope = existing.scope) :
    (state.setInvocation updated).scopes = state.scopes := by
  have hkey : updated.invocationKey = existing.invocationKey := congrArg StepScope.key hscope
  ext scope
  constructor
  · rintro ⟨invocation, hmem, rfl⟩
    rcases Keyed.mem_set.mp hmem with rfl | ⟨hold, _⟩
    · exact ⟨existing, hexisting, hscope.symm⟩
    · exact ⟨invocation, hold, rfl⟩
  · rintro ⟨invocation, hmem, rfl⟩
    by_cases hsame : invocation.invocationKey = updated.invocationKey
    · have heq : invocation = existing :=
        Keyed.eq_of_mem_of_key_eq hmem hexisting (hsame.trans hkey)
      exact ⟨updated, Keyed.mem_set.mpr (Or.inl rfl), heq ▸ hscope⟩
    · exact ⟨invocation, Keyed.mem_set.mpr (Or.inr ⟨hmem, hsame⟩), rfl⟩

theorem SameScopes.setInvocation {state : WorkflowTransition} {existing : InvocationState}
    (hexisting : existing ∈ state.invocations) (updated : InvocationState)
    (hscope : updated.scope = existing.scope) :
    SameScopes state (state.setInvocation updated) :=
  { SameScopes.refl state with scopes := scopes_setInvocation hexisting hscope }

theorem Quiet.setInvocation {state : WorkflowTransition} {existing : InvocationState}
    (hexisting : existing ∈ state.invocations) (updated : InvocationState)
    (hscope : updated.scope = existing.scope) (hprogress : Progresses existing updated) :
    Quiet state (state.setInvocation updated) where
  toSameScopes := SameScopes.setInvocation hexisting updated hscope
  progress := KeepsInvocations.setInvocation Progresses.refl hexisting hprogress.key hprogress

theorem Quiet.setLoop {state : WorkflowTransition} {existing : LoopState}
    (hexisting : existing ∈ state.loops) (updated : LoopState)
    (hnarrow : updated.Narrows existing) :
    Quiet state (state.setLoop updated) where
  scopes := rfl
  narrows := by
    intro loop hloop
    rcases Keyed.mem_set.mp hloop with rfl | ⟨hold, _⟩
    · exact ⟨existing, hexisting, hnarrow⟩
    · exact ⟨loop, hold, LoopState.Narrows.refl loop⟩
  narrowed := by
    intro loop hloop
    by_cases hsame : loop.controlInvocationKey = updated.controlInvocationKey
    · have heq : loop = existing :=
        Keyed.eq_of_mem_of_key_eq hloop hexisting (hsame.trans hnarrow.window.key)
      exact ⟨updated, Keyed.mem_set.mpr (Or.inl rfl), heq ▸ hnarrow⟩
    · exact ⟨loop, Keyed.mem_set.mpr (Or.inr ⟨hloop, hsame⟩), LoopState.Narrows.refl loop⟩
  current := rfl
  graph := rfl
  run := Relation.ReflTransGen.refl
  progress := KeepsInvocations.of_subset Progresses.refl fun _ h => h

theorem Quiet.foldlM {β : Type} {step : WorkflowTransition -> β -> EngineResult WorkflowTransition}
    {items : List β} {start finish : WorkflowTransition}
    (hstep : forall item, item ∈ items -> forall before after,
      step before item = Except.ok after -> Quiet before after)
    (h : items.foldlM step start = Except.ok finish) : Quiet start finish :=
  foldlM_relation Quiet Quiet.refl (fun _ _ _ => Quiet.trans) hstep h

/-!
## Scheduled records
-/

def IsForEachStep (executable : CompiledWorkflowExecutable) (nodeId : String) : Prop :=
  exists node, (nodesById executable).get? nodeId = some node ∧
    node.record.definition.key = "core.foreach"

/-- A Merge step is joined once for every Parallel invocation beside it. -/
def IsMergeStep (executable : CompiledWorkflowExecutable) (nodeId : String) : Prop :=
  exists node, (nodesById executable).get? nodeId = some node ∧
    isCoreMergeDefinition node.record.definition = true

theorem IsForEachStep.not_merge {executable : CompiledWorkflowExecutable} {nodeId : String}
    (h : IsForEachStep executable nodeId) : ¬ IsMergeStep executable nodeId := by
  rintro ⟨merge, hmerge, hdefinition⟩
  rcases h with ⟨node, hnode, hkey⟩
  cases hmerge.symm.trans hnode
  unfold isCoreMergeDefinition at hdefinition
  rw [Bool.and_eq_true, beq_iff_eq, hkey] at hdefinition
  simp at hdefinition

structure LoopState.Fits (executable : CompiledWorkflowExecutable) (loop : LoopState) : Prop where
  terminal : forall ordinal, ordinal ∈ loop.terminalOrdinals ->
    ordinal < loop.nextOrdinal ∧ ordinal ∉ loop.activeOrdinals
  active : forall ordinal, ordinal ∈ loop.activeOrdinals -> ordinal < loop.nextOrdinal
  terminalStatus : forall status, loop.terminalStatus = some status ->
    isLoopTerminalStatus status = true
  roots : exists node structured, (nodesById executable).get? loop.loopId = some node ∧
    node.structured = some structured ∧
    loop.bodyRootNodeIds.Perm (Engine.bodyRootNodeIds structured.body)
  next : loop.nextOrdinal ≤ loop.collectionSize
  collection : loop.collectionSize ≤ loop.maxIterations
  iterations : exists node structured, (nodesById executable).get? loop.loopId = some node ∧
    node.structured = some structured ∧ loop.maxIterations = structured.maxIterations

theorem LoopState.Fits.narrow {executable : CompiledWorkflowExecutable} {narrow wide : LoopState}
    (h : wide.Fits executable) (hnarrow : narrow.Narrows wide) : narrow.Fits executable where
  terminal := by
    intro ordinal hterminal
    have hnext : narrow.nextOrdinal = wide.nextOrdinal := hnarrow.window.next
    rw [hnext]
    rcases hnarrow.terminal ordinal hterminal with hwide | ⟨hactive, hinactive⟩
    · rcases h.terminal ordinal hwide with ⟨hlt, hinactive⟩
      exact ⟨hlt, fun hmem => hinactive (hnarrow.window.active ordinal hmem)⟩
    · exact ⟨h.active ordinal hactive, hinactive⟩
  active := by
    intro ordinal hactive
    have hnext : narrow.nextOrdinal = wide.nextOrdinal := hnarrow.window.next
    rw [hnext]
    exact h.active ordinal (hnarrow.window.active ordinal hactive)
  terminalStatus := by
    intro status hstatus
    rcases hnarrow.terminalStatus status hstatus with hwide | hterminal
    · exact h.terminalStatus status hwide
    · exact hterminal
  roots := by
    have hid : narrow.loopId = wide.loopId := hnarrow.window.node
    rcases h.roots with ⟨node, structured, hnode, hstructured, hroots⟩
    rw [hid]
    exact ⟨node, structured, hnode, hstructured, hnarrow.bodyRootNodeIds.trans hroots⟩
  next := by
    have hnext : narrow.nextOrdinal = wide.nextOrdinal := hnarrow.window.next
    rw [hnext, hnarrow.collectionSize]
    exact h.next
  collection := by
    rw [hnarrow.collectionSize, hnarrow.maxIterations]
    exact h.collection
  iterations := by
    have hid : narrow.loopId = wide.loopId := hnarrow.window.node
    rw [hid, hnarrow.maxIterations]
    exact h.iterations

abbrev AdmissionLog := List (IterationAdmission String IterationScopePart)
abbrev Ledger := RunLedger String IterationScopePart

/-- The scopes of a run, with the ledger of the iterations it has admitted. -/
structure Scheduled (executable : CompiledWorkflowExecutable) (workflowVersionId : String)
    (ledger : Ledger) (invocations : List InvocationState) (loops : List LoopState) : Prop where
  nested : WellScoped iterationPart (fun nodeId => ¬ IsMergeStep executable nodeId)
    (scopesOf invocations) (windowsOf loops)
  addressed : forall scope, scope ∈ scopesOf invocations ->
    IsAddress executable workflowVersionId scope
  recorded : Recorded iterationPart (scopesOf invocations) (windowsOf loops) ledger
  fits : forall loop, loop ∈ loops -> loop.Fits executable

structure SameRecords (invocations : List InvocationState) (loops : List LoopState)
    (invocations' : List InvocationState) (loops' : List LoopState) : Prop where
  scopes : scopesOf invocations' = scopesOf invocations
  narrows : forall loop, loop ∈ loops' -> exists wide, wide ∈ loops ∧ loop.Narrows wide
  narrowed : forall loop, loop ∈ loops -> exists narrow, narrow ∈ loops' ∧ narrow.Narrows loop

theorem settles_of_narrows {loops loops' : List LoopState}
    (hnarrows : forall loop, loop ∈ loops' -> exists wide, wide ∈ loops ∧ loop.Narrows wide)
    (hnarrowed : forall loop, loop ∈ loops ->
      exists narrow, narrow ∈ loops' ∧ narrow.Narrows loop) :
    Settles (windowsOf loops') (windowsOf loops) where
  narrows := by
    rintro _ ⟨loop, hloop, rfl⟩
    rcases hnarrows loop hloop with ⟨wide, hwide, hnarrow⟩
    exact ⟨wide.window, mem_windowsOf hwide, hnarrow.window⟩
  narrowed := by
    rintro _ ⟨loop, hloop, rfl⟩
    rcases hnarrowed loop hloop with ⟨narrow, hmem, hnarrow⟩
    exact ⟨narrow.window, mem_windowsOf hmem, hnarrow.window⟩

theorem Scheduled.of_sameRecords {executable : CompiledWorkflowExecutable}
    {workflowVersionId : String} {ledger : Ledger}
    {invocations invocations' : List InvocationState} {loops loops' : List LoopState}
    (h : Scheduled executable workflowVersionId ledger invocations loops)
    (hsame : SameRecords invocations loops invocations' loops')
    (hnodup : (loops'.map LoopState.controlInvocationKey).Nodup) :
    Scheduled executable workflowVersionId ledger invocations' loops' where
  nested := by
    rw [hsame.scopes]
    exact h.nested.settle (settles_of_narrows hsame.narrows hsame.narrowed) (windows_keyed hnodup)
  addressed := by
    rw [hsame.scopes]
    exact h.addressed
  recorded := by
    rw [hsame.scopes]
    exact h.recorded.settle (settles_of_narrows hsame.narrows hsame.narrowed)
  fits := by
    intro loop hloop
    rcases hsame.narrows loop hloop with ⟨wide, hwide, hnarrow⟩
    exact (h.fits wide hwide).narrow hnarrow

structure ScheduledState (executable : CompiledWorkflowExecutable) (ledger : Ledger)
    (state : WorkflowTransition) : Prop where
  records : Scheduled executable state.current.workflowVersionId ledger state.invocations.items
    state.loops.items
  graph : state.graph = schedulerState executable

theorem ScheduledState.of_sameScopes {executable : CompiledWorkflowExecutable}
    {ledger : Ledger} {before after : WorkflowTransition}
    (h : ScheduledState executable ledger before)
    (hsame : SameScopes before after) : ScheduledState executable ledger after where
  records := by
    rw [hsame.current]
    exact h.records.of_sameRecords ⟨hsame.scopes, hsame.narrows, hsame.narrowed⟩
      after.loops.nodup
  graph := hsame.graph.trans h.graph

end Engine
end Pertexo
