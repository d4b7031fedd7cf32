import Pertexo.Engine.Admissions
import Pertexo.Engine.CheckpointScopes
import Pertexo.Engine.Coordinator

/-!
# Facts that a coordination keeps

## Released iterations

An iteration is released once its ordinal is terminal and every invocation in
it is. Pruning drops exactly the scopes inside released iterations.
-/

namespace Pertexo
namespace Engine

open Library
open Values

variable {executable : CompiledWorkflowExecutable} {ledger : Ledger}

def IsReleased (state : WorkflowTransition) (window : LoopScope) (ordinal : Nat) : Prop :=
  exists loop, loop ∈ state.loops ∧ loop.window = window ∧ ordinal ∈ loop.terminalOrdinals ∧
    forall owner, owner ∈ state.invocations -> iterationOwns loop ordinal owner = true ->
      isTerminalNodeStatus owner.status = true

theorem allReleased {state : WorkflowTransition} (hstate : ScheduledState executable ledger state) :
    AllReleased state.windows (IsReleased state) := by
  rintro _ ordinal ⟨loop, hloop, rfl, hordinal, _⟩
  rcases (hstate.records.fits loop hloop).terminal ordinal hordinal with ⟨hlt, hinactive⟩
  exact ⟨mem_windowsOf hloop, hlt, hinactive⟩

theorem iterationOwns_iff {state : WorkflowTransition} {loop : LoopState} {ordinal : Nat}
    {invocation : InvocationState} (hstate : ScheduledState executable ledger state)
    (hloop : loop ∈ state.loops) (hinvocation : invocation ∈ state.invocations) :
    iterationOwns loop ordinal invocation = true ↔
      loop.iterationScope ordinal <+: invocation.scope.path := by
  rw [iterationOwns, Bool.and_eq_true, iterationPathHasPrefix_iff, branchPathHasPrefix_iff]
  constructor
  · intro h
    exact h.left
  · intro h
    exact ⟨h, (hstate.records.nested.branch_of_iteration iterationPart_injective
      (mem_scopesOf hinvocation) (mem_windowsOf hloop) h).left⟩

theorem mem_finishedOwnerKeys {invocations : List InvocationState} {loop : LoopState}
    {ordinal : Nat} {key : String} :
    key ∈ finishedOwnerKeys invocations loop ordinal ↔
      (forall owner, owner ∈ invocations -> iterationOwns loop ordinal owner = true ->
        isTerminalNodeStatus owner.status = true) ∧
      exists owner, owner ∈ invocations ∧ iterationOwns loop ordinal owner = true ∧
        owner.invocationKey = key := by
  have howners : ((invocations.filter (iterationOwns loop ordinal)).all
        fun owner => isTerminalNodeStatus owner.status) = true ↔
      forall owner, owner ∈ invocations -> iterationOwns loop ordinal owner = true ->
        isTerminalNodeStatus owner.status = true := by
    rw [List.all_eq_true]
    constructor
    · intro h owner hmem howns
      exact h owner (List.mem_filter.mpr ⟨hmem, howns⟩)
    · intro h owner hmem
      rcases List.mem_filter.mp hmem with ⟨hinvocation, howns⟩
      exact h owner hinvocation howns
  unfold finishedOwnerKeys
  dsimp only
  split
  · rename_i hall
    rw [List.mem_map]
    constructor
    · rintro ⟨owner, howner, rfl⟩
      rcases List.mem_filter.mp howner with ⟨hmem, howns⟩
      exact ⟨howners.mp hall, owner, hmem, howns, rfl⟩
    · rintro ⟨_, owner, hmem, howns, rfl⟩
      exact ⟨owner, List.mem_filter.mpr ⟨hmem, howns⟩, rfl⟩
  · rename_i hsome
    constructor
    · intro h
      cases h
    · intro h
      exact absurd (howners.mpr h.left) hsome

/-- The pruned keys are those of the invocations inside released iterations. -/
theorem mem_prunedKeys_iff {state : WorkflowTransition} {invocation : InvocationState}
    (hstate : ScheduledState executable ledger state) (hmem : invocation ∈ state.invocations) :
    invocation.invocationKey ∈ prunedKeysOf state.invocations.items state.loops.items ↔
      ¬ IsKept iterationPart (IsReleased state) invocation.scope.path := by
  simp only [IsKept, not_forall, not_not]
  unfold prunedKeysOf
  rw [List.mem_flatMap]
  constructor
  · rintro ⟨loop, hloop, hkeys⟩
    rcases List.mem_flatMap.mp hkeys with ⟨ordinal, hordinal, hkey⟩
    rcases mem_finishedOwnerKeys.mp hkey with ⟨hterminal, owner, howner, howns, hsame⟩
    have heq : owner = invocation := Keyed.eq_of_mem_of_key_eq howner hmem hsame
    refine ⟨loop.window, ordinal, ⟨loop, hloop, rfl, hordinal, hterminal⟩, ?_⟩
    rw [heq] at howns
    exact (iterationOwns_iff hstate hloop hmem).mp howns
  · rintro ⟨_, ordinal, ⟨loop, hloop, rfl, hordinal, hterminal⟩, hcover⟩
    refine ⟨loop, hloop, List.mem_flatMap.mpr ⟨ordinal, hordinal, ?_⟩⟩
    refine mem_finishedOwnerKeys.mpr ⟨hterminal, invocation, hmem, ?_, rfl⟩
    exact (iterationOwns_iff hstate hloop hmem).mpr hcover

theorem scopesOf_pruned {state : WorkflowTransition}
    (hstate : ScheduledState executable ledger state) :
    scopesOf (pruneFinishedIterations state).invocations =
      keptScopes iterationPart state.scopes (IsReleased state) := by
  have hkept : forall invocation, invocation ∈ state.invocations ->
      (invocation ∈ (pruneFinishedIterations state).invocations ↔
        IsKept iterationPart (IsReleased state) invocation.scope.path) := by
    intro invocation hmem
    have hkeys := mem_prunedKeys_iff hstate hmem
    unfold pruneFinishedIterations
    dsimp only
    rw [List.mem_filter, Bool.not_eq_true', ← Bool.not_eq_true, List.contains_iff_mem, hkeys,
      not_not]
    exact and_iff_right hmem
  ext scope
  constructor
  · rintro ⟨invocation, hmem, rfl⟩
    have hold : invocation ∈ state.invocations := (List.mem_filter.mp hmem).left
    exact ⟨mem_scopesOf hold, (hkept invocation hold).mp hmem⟩
  · rintro ⟨⟨invocation, hold, rfl⟩, hpath⟩
    exact ⟨invocation, (hkept invocation hold).mpr hpath, rfl⟩

theorem narrows_pruneLoop (kept : List InvocationState) (loop : LoopState) :
    (pruneLoop kept loop).Narrows loop where
  window := LoopWindow.Narrows.refl _
  bodyRootNodeIds := List.Perm.refl _
  terminal := by
    intro ordinal hmem
    exact Or.inl (List.mem_filter.mp hmem).left
  terminalStatus := fun _ hstatus => Or.inl hstatus
  collectionSize := rfl
  maxIterations := rfl

theorem mem_keptLoops_iff {state : WorkflowTransition} {loop : LoopState}
    (hstate : ScheduledState executable ledger state) (hloop : loop ∈ state.loops) :
    loop.controlInvocationKey ∈ prunedKeysOf state.invocations.items state.loops.items ↔
      ¬ IsKept iterationPart (IsReleased state) loop.iterationPath := by
  rcases hstate.records.nested.owned loop.window (mem_windowsOf hloop) with
    ⟨_, ⟨control, hcontrol, rfl⟩, hkey, _, _, hpath⟩
  have hkeys := mem_prunedKeys_iff hstate hcontrol
  have hkey' : control.invocationKey = loop.controlInvocationKey := hkey
  have hpath' : control.scope.path = loop.iterationPath := hpath
  rw [hkey', hpath'] at hkeys
  exact hkeys

theorem settles_pruned {state : WorkflowTransition}
    (hstate : ScheduledState executable ledger state) :
    Settles (windowsOf (pruneFinishedIterations state).loops)
      (keptWindows iterationPart state.windows (IsReleased state)) := by
  have hmem : forall loop, loop ∈ state.loops ->
      (loop ∈ state.loops.items.filter (fun loop =>
          !(prunedKeysOf state.invocations.items state.loops.items).contains
            loop.controlInvocationKey) ↔
        IsKept iterationPart (IsReleased state) loop.window.path) := by
    intro loop hloop
    rw [List.mem_filter, Bool.not_eq_true', ← Bool.not_eq_true, List.contains_iff_mem,
      mem_keptLoops_iff hstate hloop, not_not]
    exact and_iff_right hloop
  constructor
  · rintro _ ⟨pruned, hpruned, rfl⟩
    rcases List.mem_map.mp hpruned with ⟨loop, hkept, rfl⟩
    have hloop : loop ∈ state.loops := (List.mem_filter.mp hkept).left
    exact ⟨loop.window, ⟨mem_windowsOf hloop, (hmem loop hloop).mp hkept⟩,
      (narrows_pruneLoop _ loop).window⟩
  · rintro _ ⟨⟨loop, hloop, rfl⟩, hpath⟩
    have hkept := (hmem loop hloop).mpr hpath
    exact ⟨_, mem_windowsOf (List.mem_map_of_mem hkept), (narrows_pruneLoop _ loop).window⟩

theorem nodup_prunedLoops (state : WorkflowTransition) :
    ((pruneFinishedIterations state).loops.map LoopState.controlInvocationKey).Nodup := by
  unfold pruneFinishedIterations
  dsimp only
  rw [List.map_map]
  exact (List.filter_sublist.map LoopState.controlInvocationKey).nodup state.loops.nodup

theorem scheduled_prune {state : WorkflowTransition}
    (hstate : ScheduledState executable ledger state) :
    Scheduled executable state.current.workflowVersionId ledger
      (pruneFinishedIterations state).invocations (pruneFinishedIterations state).loops where
  nested := by
    rw [scopesOf_pruned hstate]
    exact hstate.records.nested.prune.settle (settles_pruned hstate)
      (windows_keyed (nodup_prunedLoops state))
  addressed := by
    rw [scopesOf_pruned hstate]
    intro scope hscope
    exact hstate.records.addressed scope hscope.left
  recorded := by
    rw [scopesOf_pruned hstate]
    exact (hstate.records.recorded.prune (allReleased hstate)).settle (settles_pruned hstate)
  fits := by
    intro pruned hpruned
    rcases List.mem_map.mp hpruned with ⟨loop, hkept, rfl⟩
    exact (hstate.records.fits loop (List.mem_filter.mp hkept).left).narrow
      (narrows_pruneLoop _ loop)

/-!
## Plans
-/

/-- The records of a checkpoint, scheduled under the ledger of its run. -/
def ScheduledCheckpoint (executable : CompiledWorkflowExecutable) (ledger : Ledger)
    (checkpoint : WorkflowCheckpoint) : Prop :=
  Scheduled executable checkpoint.workflowVersionId ledger checkpoint.invocations checkpoint.loops

theorem ScheduledCheckpoint.parse {source parsed : WorkflowCheckpoint}
    (h : ScheduledCheckpoint executable ledger source)
    (hparsed : parseCheckpoint source = Except.ok parsed) :
    ScheduledCheckpoint executable ledger parsed := by
  have hfrom := parsedFrom_of_parseCheckpoint hparsed
  unfold ScheduledCheckpoint
  rw [hfrom.workflowVersionId]
  exact h.of_sameRecords hfrom.records hfrom.loops_nodup

theorem scheduled_buildWorkflowTransitionPlan {state : WorkflowTransition} {input : PlanInput}
    {plan : WorkflowTransitionPlan} (hstate : ScheduledState executable ledger state)
    (h : buildWorkflowTransitionPlan state input = Except.ok plan) :
    ScheduledCheckpoint executable ledger plan.checkpoint := by
  rcases exists_planPasses h with ⟨passes⟩
  have hsettled := hstate.of_sameScopes passes.same
  have hplanned : ScheduledCheckpoint executable ledger
      (plannedCheckpoint passes.settled (pruneFinishedIterations passes.settled)
        passes.admittedKeys passes.nextEventSequence) :=
    scheduled_prune hsettled
  exact hplanned.parse passes.parsed

/-!
## Persisted facts
-/

theorem isTerminal_of_outcomeStatus {status : NodeStatus} (h : isOutcomeStatus status = true) :
    isTerminalNodeStatus status = true := by
  cases status <;> first | rfl | cases h

theorem status_of_assertSequencedDetail {attempt : AttemptReference} {status : NodeStatus}
    {output : Option OutputReference} {reasonCode : Option String}
    (h : assertSequencedDetail (.outcome attempt status output reasonCode) = Except.ok ()) :
    isTerminalNodeStatus status = true := by
  rcases exists_of_bind_eq_ok h with ⟨_, hstatus, _⟩
  unfold assertObservation at hstatus
  rw [assertThat_eq_ok_iff, Bool.and_eq_true] at hstatus
  exact isTerminal_of_outcomeStatus hstatus.right

/-- Facts of which every persisted outcome has a terminal status. -/
def HasTerminalOutcomes (facts : List PersistedFact) : Prop :=
  forall fact, .sequenced fact ∈ facts -> forall attempt status output reasonCode,
    fact.detail = .outcome attempt status output reasonCode ->
    isTerminalNodeStatus status = true

theorem hasTerminalOutcomes_of_assert {facts : List PersistedFact}
    (h : facts.forM assertPersistedFact = Except.ok ()) : HasTerminalOutcomes facts := by
  intro fact hmem attempt status output reasonCode hdetail
  have hfact := forM_eq_ok_iff.mp h _ hmem
  rcases exists_of_bind_eq_ok hfact with ⟨_, _, hsequenced⟩
  rw [hdetail] at hsequenced
  exact status_of_assertSequencedDetail hsequenced

theorem sequenced_of_partitionFact {partition next : FactPartition} {stored : PersistedFact}
    (h : partitionFact partition stored = Except.ok next) {fact : SequencedFact}
    (hmem : fact ∈ next.sequenced) : fact ∈ partition.sequenced ∨ stored = .sequenced fact := by
  cases stored with
  | sequenced other =>
      cases h
      rcases List.mem_append.mp hmem with hold | hlast
      · exact Or.inl hold
      · rw [List.mem_singleton.mp hlast]
        exact Or.inr rfl
  | attemptFailure failure =>
      rcases exists_of_bind_eq_ok h with ⟨_, _, hdone⟩
      cases hdone
      exact Or.inl hmem
  | dueAt due =>
      simp only [partitionFact] at h
      split at h
      · cases h
        exact Or.inl hmem
      · rcases exists_of_bind_eq_ok h with ⟨_, _, hdone⟩
        cases hdone
        exact Or.inl hmem
  | deadlineExpired occurredAt =>
      rcases exists_of_bind_eq_ok h with ⟨_, _, hdone⟩
      cases hdone
      exact Or.inl hmem

theorem sequenced_of_partition {facts : List PersistedFact} {start finish : FactPartition}
    (h : facts.foldlM partitionFact start = Except.ok finish) {fact : SequencedFact}
    (hmem : fact ∈ finish.sequenced) : fact ∈ start.sequenced ∨ .sequenced fact ∈ facts := by
  induction facts generalizing start with
  | nil =>
      rw [List.foldlM_nil, pure_eq_ok_iff] at h
      exact Or.inl (h ▸ hmem)
  | cons head rest ih =>
      rw [List.foldlM_cons] at h
      rcases exists_of_bind_eq_ok h with ⟨next, hnext, hrest⟩
      rcases ih hrest with hold | hnew
      · rcases sequenced_of_partitionFact hnext hold with hstart | rfl
        · exact Or.inl hstart
        · exact Or.inr (List.mem_cons_self ..)
      · exact Or.inr (List.mem_cons_of_mem _ hnew)

theorem mem_of_uniqueFacts {sequenced start finish : List SequencedFact}
    (h : sequenced.foldlM addUniqueFact start = Except.ok finish) {fact : SequencedFact}
    (hmem : fact ∈ finish) : fact ∈ start ∨ fact ∈ sequenced := by
  induction sequenced generalizing start with
  | nil =>
      rw [List.foldlM_nil, pure_eq_ok_iff] at h
      exact Or.inl (h ▸ hmem)
  | cons head rest ih =>
      rw [List.foldlM_cons] at h
      rcases exists_of_bind_eq_ok h with ⟨next, hnext, hrest⟩
      rcases ih hrest with hold | hnew
      · unfold addUniqueFact at hnext
        split at hnext
        · cases hnext
          rw [List.mem_singleton.mp hold]
          exact Or.inr (List.mem_cons_self ..)
        · split at hnext
          · exact absurd hnext fail_ne_ok
          · split at hnext
            · rcases exists_of_bind_eq_ok hnext with ⟨_, _, hnext⟩
              cases hnext
              exact Or.inl hold
            · cases hnext
              rcases List.mem_append.mp hold with hstart | hlast
              · exact Or.inl hstart
              · rw [List.mem_singleton.mp hlast]
                exact Or.inr (List.mem_cons_self ..)
      · exact Or.inr (List.mem_cons_of_mem _ hnew)

theorem mem_of_freshFacts {checkpoint : WorkflowCheckpoint}
    {unique start finish : List SequencedFact}
    (h : unique.foldlM (addFreshFact checkpoint) start = Except.ok finish) {fact : SequencedFact}
    (hmem : fact ∈ finish) : fact ∈ start ∨ fact ∈ unique := by
  induction unique generalizing start with
  | nil =>
      rw [List.foldlM_nil, pure_eq_ok_iff] at h
      exact Or.inl (h ▸ hmem)
  | cons head rest ih =>
      rw [List.foldlM_cons] at h
      rcases exists_of_bind_eq_ok h with ⟨next, hnext, hrest⟩
      rcases ih hrest with hold | hnew
      · unfold addFreshFact at hnext
        split at hnext
        · rcases exists_of_bind_eq_ok hnext with ⟨_, _, hnext⟩
          cases hnext
          exact Or.inl hold
        · rcases exists_of_bind_eq_ok hnext with ⟨_, _, hnext⟩
          cases hnext
          rcases List.mem_append.mp hold with hstart | hlast
          · exact Or.inl hstart
          · rw [List.mem_singleton.mp hlast]
            exact Or.inr (List.mem_cons_self ..)
      · exact Or.inr (List.mem_cons_of_mem _ hnew)

theorem parsePersistedObservations_spec {facts : List PersistedFact}
    {checkpoint : WorkflowCheckpoint} {persisted : ParsedPersistedObservations}
    (h : parsePersistedObservations facts checkpoint = Except.ok persisted) :
    persisted.facts = facts ∧ HasTerminalOutcomes facts ∧
      forall fact, fact ∈ persisted.fresh -> .sequenced fact ∈ facts := by
  unfold parsePersistedObservations at h
  rcases exists_of_bind_eq_ok h with ⟨_, hassert, h⟩
  rcases exists_of_bind_eq_ok h with ⟨partition, hpartition, h⟩
  rcases exists_of_bind_eq_ok h with ⟨_, _, h⟩
  rcases exists_of_bind_eq_ok h with ⟨fresh, hfresh, h⟩
  cases h
  refine ⟨rfl, hasTerminalOutcomes_of_assert hassert, ?_⟩
  intro fact hmem
  unfold freshSequencedObservations at hfresh
  rcases exists_of_bind_eq_ok hfresh with ⟨unique, hunique, hfresh⟩
  rcases exists_of_bind_eq_ok hfresh with ⟨found, hfound, hfresh⟩
  rcases exists_of_bind_eq_ok hfresh with ⟨_, _, hfresh⟩
  cases hfresh
  rcases mem_of_freshFacts hfound hmem with hempty | hmem
  · cases hempty
  · rcases mem_of_uniqueFacts hunique hmem with hempty | hmem
    · cases hempty
    · rcases sequenced_of_partition hpartition hmem with hempty | hmem
      · cases hempty
      · exact hmem

/-!
## Observations without declarations

The selections, waits, calls, tasks and outcomes of a batch declare no scope;
every outcome among them is terminal.
-/

/-- An observation that declares nothing, and is terminal if it is an outcome. -/
def IsPlain : WorkflowObservation -> Prop
  | .outcome fact => isTerminalNodeStatus fact.status = true
  | .joinDeclared _ => False
  | .loopStarted _ => False
  | .loopIterationCompleted _ => False
  | _ => True

theorem IsPlain.fits {workflowVersionId : String} {scopes : Set InvocationScope}
    {observation : WorkflowObservation} (h : IsPlain observation) :
    ObservationFits executable workflowVersionId scopes observation := by
  cases observation <;> first | exact h | exact h.elim

def AllPlain (observations : List WorkflowObservation) : Prop :=
  forall observation, observation ∈ observations -> IsPlain observation

theorem AllPlain.append {left right : List WorkflowObservation} (hleft : AllPlain left)
    (hright : AllPlain right) : AllPlain (left ++ right) := by
  intro observation hmem
  rcases List.mem_append.mp hmem with hmem | hmem
  · exact hleft observation hmem
  · exact hright observation hmem

theorem allPlain_nil : AllPlain [] := by
  intro observation hmem
  cases hmem

theorem AllPlain.singleton {observation : WorkflowObservation} (h : IsPlain observation) :
    AllPlain [observation] := by
  intro other hmem
  rw [List.mem_singleton.mp hmem]
  exact h

theorem isPlain_toObservation {facts : List PersistedFact} {fact : SequencedFact}
    (hfacts : HasTerminalOutcomes facts) (hmem : .sequenced fact ∈ facts) :
    IsPlain fact.toObservation := by
  unfold SequencedFact.toObservation
  split
  · trivial
  · trivial
  · trivial
  · rename_i attempt status output reasonCode hdetail
    exact hfacts fact hmem attempt status output reasonCode hdetail

theorem IsPlain.rewriteDeclaredOutcome {declared : List String}
    {observation : WorkflowObservation} (h : IsPlain observation) :
    IsPlain (Engine.rewriteDeclaredOutcome declared observation) := by
  cases observation with
  | outcome fact =>
      unfold Engine.rewriteDeclaredOutcome
      dsimp only
      split
      · trivial
      · exact h
  | _ => exact h

theorem allPlain_branchSelections {completed : List CompletedOutput}
    {outcomes : SuccessfulOutcomes} {checkpoint : WorkflowCheckpoint} {nodes : NodeIndex}
    {observations : List WorkflowObservation}
    (h : branchSelectionObservations completed outcomes checkpoint nodes =
      Except.ok observations) :
    AllPlain observations := by
  unfold branchSelectionObservations at h
  rcases exists_of_bind_eq_ok h with ⟨progress, hprogress, h⟩
  rcases exists_of_bind_eq_ok h with ⟨_, _, h⟩
  cases h
  apply foldlM_invariant (fun progress : BranchSelectionProgress => AllPlain progress.observations)
    allPlain_nil _ hprogress
  intro material _ before after hbefore hstep
  unfold branchSelectionStep at hstep
  rcases exists_of_bind_eq_ok hstep with ⟨_, _, hstep⟩
  dsimp only at hstep
  split at hstep
  · rcases exists_of_bind_eq_ok hstep with ⟨_, _, hstep⟩
    cases hstep
    exact hbefore
  · split at hstep
    · exact absurd hstep fail_ne_ok
    · rcases exists_of_bind_eq_ok hstep with ⟨_, _, hstep⟩
      unfold readBranchMaterial at hstep
      split at hstep
      · cases hstep
        exact hbefore
      · dsimp only at hstep
        split at hstep
        · cases hstep
          exact hbefore
        · split at hstep
          · rcases exists_of_bind_eq_ok hstep with ⟨_, _, hstep⟩
            cases hstep
            exact hbefore
          · split at hstep
            · cases hstep
              exact hbefore
            · rcases exists_of_bind_eq_ok hstep with ⟨selected, hselected, hstep⟩
              cases hstep
              apply AllPlain.append hbefore
              apply AllPlain.singleton
              unfold selectedBranch at hselected
              rcases exists_of_bind_eq_ok hselected with ⟨_, _, hselected⟩
              rcases exists_of_bind_eq_ok hselected with ⟨_, _, hselected⟩
              split at hselected
              · exact absurd hselected fail_ne_ok
              · rcases exists_of_bind_eq_ok hselected with ⟨_, _, hselected⟩
                cases hselected
                trivial

theorem isPlain_resolveFailure {host : EngineHost} {runId : String} {node : NodeRecord}
    {controlCanceled controlDeadline : Bool} {failure : AttemptFailure} :
    IsPlain (resolveFailure host runId node controlCanceled controlDeadline failure) := by
  unfold resolveFailure
  dsimp only
  split
  · unfold interruptedFailureStatus failureOutcome IsPlain
    dsimp only
    split
    · rfl
    · split
      · rfl
      · rfl
  · split
    · rfl
    · unfold failureOutcome IsPlain
      dsimp only
      split
      · rfl
      · rfl
    · unfold retriedFailure
      split
      · trivial
      · rfl
      · rfl
    · unfold retriedFailure
      split
      · trivial
      · rfl
      · rfl

theorem allPlain_resolvedFailures {host : EngineHost} {runId : String}
    {checkpoint : WorkflowCheckpoint} {nodes : NodeIndex}
    {controlCanceled controlDeadline : Bool} {failures : List AttemptFailure}
    {observations : List WorkflowObservation}
    (h : resolveAttemptFailures host runId checkpoint nodes controlCanceled controlDeadline
      failures = Except.ok observations) :
    AllPlain observations := by
  intro observation hmem
  rcases exists_of_mem_mapM h hmem with ⟨failure, _, hresolved⟩
  unfold resolveAttemptFailure at hresolved
  split at hresolved
  · exact absurd hresolved fail_ne_ok
  · split at hresolved
    · exact absurd hresolved fail_ne_ok
    · rcases exists_of_bind_eq_ok hresolved with ⟨_, _, hresolved⟩
      cases hresolved
      exact isPlain_resolveFailure

theorem allPlain_callDeclarations {outcomes : SuccessfulOutcomes}
    {checkpoint : WorkflowCheckpoint} {nodes : NodeIndex}
    {calls : DeclaredWork WorkflowCallIntent}
    (h : callDeclarationObservations outcomes checkpoint nodes = Except.ok calls) :
    AllPlain calls.observations := by
  unfold callDeclarationObservations at h
  rcases exists_of_bind_eq_ok h with ⟨intents, _, h⟩
  cases h
  intro observation hmem
  rcases List.mem_map.mp hmem with ⟨_, _, rfl⟩
  trivial

theorem allPlain_taskDeclarations {completed : List CompletedOutput}
    {outcomes : SuccessfulOutcomes} {checkpoint : WorkflowCheckpoint} {nodes : NodeIndex}
    {tasks : DeclaredWork PendingTaskIntent}
    (h : taskDeclarationObservations completed outcomes checkpoint nodes = Except.ok tasks) :
    AllPlain tasks.observations := by
  unfold taskDeclarationObservations at h
  rcases exists_of_bind_eq_ok h with ⟨pending, _, h⟩
  rcases exists_of_bind_eq_ok h with ⟨intents, _, h⟩
  cases h
  intro observation hmem
  rcases List.mem_map.mp hmem with ⟨_, _, rfl⟩
  trivial

theorem isPlain_callOutcomeObservation (fact : WorkflowCallOutcome) :
    IsPlain (callOutcomeObservation fact) := by
  unfold callOutcomeObservation IsPlain callOutcomeStatus
  dsimp only
  split
  · rfl
  · rfl
  · rfl

theorem allPlain_callOutcomes {facts : List WorkflowCallOutcome}
    {checkpoint : WorkflowCheckpoint} {nodes : NodeIndex}
    {observations : List WorkflowObservation}
    (h : callOutcomeObservations facts checkpoint executable nodes = Except.ok observations) :
    AllPlain observations := by
  unfold callOutcomeObservations at h
  rcases exists_of_bind_eq_ok h with ⟨progress, hprogress, h⟩
  cases h
  apply foldlM_invariant
    (fun progress : OutcomeProgress WorkflowCallOutcome => AllPlain progress.observations)
    allPlain_nil _ hprogress
  intro fact _ before after hbefore hstep
  unfold applyCallOutcome at hstep
  rcases exists_of_bind_eq_ok hstep with ⟨_, _, hstep⟩
  split at hstep
  · rcases exists_of_bind_eq_ok hstep with ⟨_, _, hstep⟩
    cases hstep
    exact hbefore
  · rcases exists_of_bind_eq_ok hstep with ⟨_, _, hstep⟩
    rcases exists_of_bind_eq_ok hstep with ⟨_, _, hstep⟩
    rcases exists_of_bind_eq_ok hstep with ⟨settled, hsettled, hstep⟩
    cases hstep
    apply AllPlain.append hbefore
    unfold settleCallOutcome at hsettled
    split at hsettled
    · split at hsettled
      · cases hsettled
        exact allPlain_nil
      · exact absurd hsettled fail_ne_ok
    · split at hsettled
      · rcases exists_of_bind_eq_ok hsettled with ⟨_, _, hsettled⟩
        cases hsettled
        exact allPlain_nil
      · rcases exists_of_bind_eq_ok hsettled with ⟨_, _, hsettled⟩
        cases hsettled
        exact AllPlain.singleton (isPlain_callOutcomeObservation fact)

theorem allPlain_taskPort {fact : PendingTaskOutcome} {node : NodeRecord} {timedOut : Bool} :
    AllPlain (taskPortObservations fact node timedOut) := by
  unfold taskPortObservations
  split
  · exact allPlain_nil
  · exact AllPlain.singleton trivial

theorem allPlain_taskResult {fact : PendingTaskOutcome} {owner : InvocationState}
    {node : NodeRecord} {observations : List WorkflowObservation}
    (h : taskResultObservations fact owner node = Except.ok observations) :
    AllPlain observations := by
  unfold taskResultObservations at h
  dsimp only at h
  rcases exists_of_bind_eq_ok h with ⟨_, _, h⟩
  split at h
  · cases h
    apply AllPlain.append (AllPlain.singleton _) allPlain_taskPort
    rfl
  · cases h
    apply AllPlain.singleton
    unfold unsettledTaskOutcome
    split
    · rfl
    · rfl

theorem allPlain_taskOutcomes {facts : List PendingTaskOutcome}
    {checkpoint : WorkflowCheckpoint} {nodes : NodeIndex}
    {observations : List WorkflowObservation}
    (h : taskOutcomeObservations facts checkpoint executable nodes = Except.ok observations) :
    AllPlain observations := by
  unfold taskOutcomeObservations at h
  rcases exists_of_bind_eq_ok h with ⟨progress, hprogress, h⟩
  cases h
  apply foldlM_invariant
    (fun progress : OutcomeProgress PendingTaskOutcome => AllPlain progress.observations)
    allPlain_nil _ hprogress
  intro fact _ before after hbefore hstep
  unfold applyTaskOutcome at hstep
  rcases exists_of_bind_eq_ok hstep with ⟨_, _, hstep⟩
  split at hstep
  · rcases exists_of_bind_eq_ok hstep with ⟨_, _, hstep⟩
    cases hstep
    exact hbefore
  · rcases exists_of_bind_eq_ok hstep with ⟨_, _, hstep⟩
    rcases exists_of_bind_eq_ok hstep with ⟨_, _, hstep⟩
    rcases exists_of_bind_eq_ok hstep with ⟨settled, hsettled, hstep⟩
    cases hstep
    apply AllPlain.append hbefore
    unfold settleTaskOutcome at hsettled
    split at hsettled
    · split at hsettled
      · rcases exists_of_bind_eq_ok hsettled with ⟨_, _, hsettled⟩
        cases hsettled
        exact allPlain_nil
      · rcases exists_of_bind_eq_ok hsettled with ⟨_, _, hsettled⟩
        exact allPlain_taskResult hsettled
    · split at hsettled
      · cases hsettled
        exact allPlain_nil
      · exact absurd hsettled fail_ne_ok

end Engine
end Pertexo
