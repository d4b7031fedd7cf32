import Pertexo.Engine.LoopBookkeeping
import Pertexo.Engine.OutcomeDelivery

/-!
# The numbers of events

Facts and events of a run share one sequence. An advance consumes the facts that continue it
and numbers its own events behind them, so that over a run no number is left out and none is
used twice.

## Consumed facts
-/

namespace Pertexo
namespace Engine

open Library
open Values

/-- The facts continue the sequence of the checkpoint. -/
def ContinuesFrom (checkpoint : WorkflowCheckpoint) (facts : List SequencedFact) : Prop :=
  facts.map SequencedFact.sequence = List.range' checkpoint.nextEventSequence facts.length

theorem continuesFrom_addFreshFact {checkpoint : WorkflowCheckpoint}
    {before after : List SequencedFact} {fact : SequencedFact}
    (hbefore : ContinuesFrom checkpoint before)
    (h : addFreshFact checkpoint before fact = Except.ok after) :
    ContinuesFrom checkpoint after := by
  unfold addFreshFact at h
  split at h
  · rcases exists_of_bind_eq_ok h with ⟨_, _, h⟩
    cases h
    exact hbefore
  · rcases exists_of_bind_eq_ok h with ⟨_, hassert, h⟩
    cases h
    unfold assertObservation at hassert
    rw [assertThat_eq_ok_iff, beq_iff_eq] at hassert
    unfold ContinuesFrom at hbefore ⊢
    rw [List.map_append, hbefore, List.map_singleton, hassert, List.length_append,
      List.length_singleton, List.range'_concat, Nat.one_mul]

/-- A numbered fact that a checkpoint has passed repeats what the checkpoint records. -/
def IsRepeated (checkpoint : WorkflowCheckpoint) (fact : SequencedFact) : Prop :=
  fact.sequence < checkpoint.nextEventSequence ∧
    staleFactMatchesCheckpoint checkpoint fact = true

theorem mem_addUniqueFact {unique after : List SequencedFact} {fact other : SequencedFact}
    (h : addUniqueFact unique fact = Except.ok after) (hmem : other ∈ unique ∨ other = fact) :
    other ∈ after := by
  unfold addUniqueFact at h
  split at h
  · next hlast =>
    cases h
    rw [List.getLast?_eq_none_iff.mp hlast] at hmem
    rcases hmem with hnil | rfl
    · cases hnil
    · exact List.mem_singleton_self other
  · next previous hlast =>
    split at h
    · exact absurd h fail_ne_ok
    · split at h
      · rcases exists_of_bind_eq_ok h with ⟨_, hassert, h⟩
        cases h
        unfold assertObservation at hassert
        rw [assertThat_eq_ok_iff, decide_eq_true_eq] at hassert
        rcases hmem with hold | rfl
        · exact hold
        · rw [← hassert]
          exact List.mem_of_getLast? hlast
      · cases h
        rcases hmem with hold | rfl
        · exact List.mem_append_left _ hold
        · exact List.mem_append_right _ (List.mem_singleton_self other)

theorem mem_addFreshFact {checkpoint : WorkflowCheckpoint} {before after : List SequencedFact}
    {fact other : SequencedFact} (h : addFreshFact checkpoint before fact = Except.ok after)
    (hmem : other ∈ before ∨ other = fact) : other ∈ after ∨ IsRepeated checkpoint other := by
  unfold addFreshFact at h
  split at h
  · next hpassed =>
    rcases exists_of_bind_eq_ok h with ⟨_, hassert, h⟩
    cases h
    unfold assertObservation at hassert
    rw [assertThat_eq_ok_iff] at hassert
    rcases hmem with hold | rfl
    · exact Or.inl hold
    · exact Or.inr ⟨hpassed, hassert⟩
  · rcases exists_of_bind_eq_ok h with ⟨_, _, h⟩
    cases h
    rcases hmem with hold | rfl
    · exact Or.inl (List.mem_append_left _ hold)
    · exact Or.inl (List.mem_append_right _ (List.mem_singleton_self other))

theorem sequenced_partitionFact {before after : FactPartition} {fact : PersistedFact}
    (h : partitionFact before fact = Except.ok after) {sequenced : SequencedFact}
    (hmem : sequenced ∈ before.sequenced ∨ .sequenced sequenced = fact) :
    sequenced ∈ after.sequenced := by
  cases fact with
  | attemptFailure failure =>
      rcases exists_of_bind_eq_ok h with ⟨_, _, h⟩
      cases h
      exact hmem.resolve_right fun hsame => by cases hsame
  | dueAt due =>
      unfold partitionFact at h
      dsimp only at h
      split at h
      · cases h
        exact hmem.resolve_right fun hsame => by cases hsame
      · rcases exists_of_bind_eq_ok h with ⟨_, _, h⟩
        cases h
        exact hmem.resolve_right fun hsame => by cases hsame
  | sequenced fact =>
      cases h
      rcases hmem with hold | hsame
      · exact List.mem_append_left _ hold
      · cases hsame
        exact List.mem_append_right _ (List.mem_singleton_self sequenced)
  | deadlineExpired occurredAt =>
      rcases exists_of_bind_eq_ok h with ⟨_, _, h⟩
      cases h
      exact hmem.resolve_right fun hsame => by cases hsame

/-- A batch is consumed in the order of its numbers, and what is not consumed repeats. -/
theorem fresh_numbers {facts : List PersistedFact} {checkpoint : WorkflowCheckpoint}
    {persisted : ParsedPersistedObservations}
    (h : parsePersistedObservations facts checkpoint = Except.ok persisted) :
    ContinuesFrom checkpoint persisted.fresh ∧
      persisted.cursor.consumedThroughEventSequence =
        checkpoint.nextEventSequence + persisted.fresh.length - 1 ∧
      forall fact, .sequenced fact ∈ facts ->
        fact ∈ persisted.fresh ∨ IsRepeated checkpoint fact := by
  unfold parsePersistedObservations at h
  rcases exists_of_bind_eq_ok h with ⟨_, _, h⟩
  rcases exists_of_bind_eq_ok h with ⟨partition, hpartition, h⟩
  rcases exists_of_bind_eq_ok h with ⟨_, _, h⟩
  rcases exists_of_bind_eq_ok h with ⟨fresh, hfresh, h⟩
  cases h
  unfold freshSequencedObservations at hfresh
  rcases exists_of_bind_eq_ok hfresh with ⟨unique, hunique, hfresh⟩
  rcases exists_of_bind_eq_ok hfresh with ⟨found, hfound, hfresh⟩
  rcases exists_of_bind_eq_ok hfresh with ⟨_, _, hfresh⟩
  cases hfresh
  refine ⟨?_, rfl, ?_⟩
  · apply foldlM_invariant (ContinuesFrom checkpoint) _ _ hfound
    · rfl
    · intro fact _ before after hbefore hstep
      exact continuesFrom_addFreshFact hbefore hstep
  · intro fact hfact
    have hpartitioned := foldlM_collects
      (fun (item : PersistedFact) (found : FactPartition) =>
        forall sequenced, .sequenced sequenced = item -> sequenced ∈ found.sequenced)
      (fun _ _ _ _ hstep hkept sequenced hsame =>
        sequenced_partitionFact hstep (Or.inl (hkept sequenced hsame)))
      (fun _ _ _ hstep sequenced hsame => sequenced_partitionFact hstep (Or.inr hsame))
      hpartition _ hfact fact rfl
    have hlisted := foldlM_collects (fun item found => item ∈ found)
      (fun _ _ _ _ hstep hkept => mem_addUniqueFact hstep (Or.inl hkept))
      (fun _ _ _ hstep => mem_addUniqueFact hstep (Or.inr rfl)) hunique fact hpartitioned
    apply foldlM_collects (fun item found => item ∈ found ∨ IsRepeated checkpoint item) _ _
      hfound fact hlisted
    · intro item other before after hstep hkept
      rcases hkept with hmem | hrepeated
      · exact mem_addFreshFact hstep (Or.inl hmem)
      · exact Or.inr hrepeated
    · intro item before after hstep
      exact mem_addFreshFact hstep (Or.inr rfl)

/-!
## Planned events
-/

structure SameCounters (source parsed : WorkflowCheckpoint) : Prop where
  revision : parsed.revision = source.revision
  nextEventSequence : parsed.nextEventSequence = source.nextEventSequence
  positive : 0 < source.nextEventSequence

theorem sameCounters_of_parseCheckpointRecord {source parsed : WorkflowCheckpoint}
    (h : parseCheckpointRecord source = Except.ok parsed) : SameCounters source parsed := by
  unfold parseCheckpointRecord at h
  rcases exists_of_bind_eq_ok h with ⟨_, _, h⟩
  rcases exists_of_bind_eq_ok h with ⟨_, _, h⟩
  rcases exists_of_bind_eq_ok h with ⟨_, hsequence, h⟩
  iterate 14 rcases exists_of_bind_eq_ok h with ⟨_, _, h⟩
  cases h
  rw [assertCheckpoint_eq_ok_iff, Bool.and_eq_true, decide_eq_true_eq] at hsequence
  exact ⟨rfl, rfl, hsequence.right⟩

theorem sameCounters_of_parseCheckpoint {source parsed : WorkflowCheckpoint}
    (h : parseCheckpoint source = Except.ok parsed) : SameCounters source parsed := by
  unfold parseCheckpoint at h
  split at h
  · next found hfound =>
    cases h
    rcases exists_of_bind_eq_ok hfound with ⟨_, _, hrecord⟩
    exact sameCounters_of_parseCheckpointRecord hrecord
  · split at h
    · cases h
    · exact absurd h fail_ne_ok

theorem sequences_sequenceEvents (first : Nat) (drafts : List EngineEventDraft) :
    (sequenceEvents first drafts).map EngineEventPlan.sequence =
      List.range' first (sequenceEvents first drafts).length := by
  unfold sequenceEvents
  rw [List.map_map, List.length_map, List.length_zipIdx]
  apply List.ext_getElem
  · simp
  · intro i _ _
    simp

/-- A plan numbers its events behind the consumed facts, and takes the next revision. -/
theorem plan_numbers {state : WorkflowTransition} {input : PlanInput}
    {plan : WorkflowTransitionPlan}
    (h : buildWorkflowTransitionPlan state input = Except.ok plan) :
    plan.events.map EngineEventPlan.sequence =
        List.range' (state.current.nextEventSequence + input.consumedObservationCount)
          plan.events.length ∧
      plan.checkpoint.nextEventSequence =
        state.current.nextEventSequence + input.consumedObservationCount + plan.events.length ∧
      plan.checkpoint.revision = state.current.revision + 1 := by
  unfold buildWorkflowTransitionPlan at h
  rcases exists_of_bind_eq_ok h with ⟨admittedKeys, _, hrest⟩
  rcases exists_of_bind_eq_ok hrest with ⟨admissions, hadmissions, hrest⟩
  rcases exists_of_bind_eq_ok hrest with ⟨settled, hsettled, hplan⟩
  have hcurrent : settled.current = state.current := by
    have hadmits := admitsFrom_admitAttempts hadmissions
    have hresumes := (resumeWaitingRun_spec admissions).right
    have hsettles := (settleRunStatus_spec hsettled).right
    rw [hsettles.current, hresumes.current, hadmits.same.current]
  unfold planFromSettled at hplan
  rcases exists_of_bind_eq_ok hplan with ⟨checkpoint, hcheckpoint, hrest⟩
  rcases exists_of_bind_eq_ok hrest with ⟨nodeRunAdmissions, _, hrest⟩
  rcases exists_of_bind_eq_ok hrest with ⟨immediateContinuation, _, hdone⟩
  cases hdone
  have hsame := sameCounters_of_parseCheckpoint hcheckpoint
  refine ⟨?_, ?_, ?_⟩
  · rw [← hcurrent]
    exact sequences_sequenceEvents _ _
  · rw [← hcurrent]
    exact hsame.nextEventSequence
  · rw [← hcurrent]
    exact hsame.revision

/-!
## Numbers of a run
-/

def eventsOfAdvance (host : EngineHost) (input : AdvanceWorkflowInput) : List EngineEventPlan :=
  match advanceWorkflow host input with
  | Except.error _ => []
  | Except.ok plan => plan.events

def numbersOfAdvance (host : EngineHost) (input : AdvanceWorkflowInput) : List Nat :=
  (consumedFacts input).map SequencedFact.sequence ++
    (eventsOfAdvance host input).map EngineEventPlan.sequence

def numbersOfRun (host : EngineHost) (inputs : List AdvanceWorkflowInput) : List Nat :=
  inputs.flatMap (numbersOfAdvance host)

/-- The batch of an advance holds consumed facts and repeated ones only. -/
def ConsumesBatch (input : AdvanceWorkflowInput) : Prop :=
  exists checkpoint, parseCheckpoint input.checkpoint = Except.ok checkpoint ∧
    forall fact, .sequenced fact ∈ input.observations ->
      fact ∈ consumedFacts input ∨ IsRepeated checkpoint fact

structure NumbersAdvance (host : EngineHost) (input : AdvanceWorkflowInput)
    (after : WorkflowCheckpoint) : Prop where
  numbers : numbersOfAdvance host input =
    List.range' input.checkpoint.nextEventSequence (numbersOfAdvance host input).length
  next : after.nextEventSequence =
    input.checkpoint.nextEventSequence + (numbersOfAdvance host input).length
  revision : after.revision = input.checkpoint.revision + 1
  batch : ConsumesBatch input

theorem persisted_of_coordinates {host : EngineHost} {input : AdvanceWorkflowInput}
    {checkpoint : WorkflowCheckpoint} {coordinated : CoordinatedObservations}
    (h : coordinateObservations host input checkpoint = Except.ok coordinated) :
    parsePersistedObservations input.observations checkpoint =
      Except.ok coordinated.persisted := by
  unfold coordinateObservations at h
  rcases exists_of_bind_eq_ok h with ⟨persisted, hpersisted, h⟩
  iterate 8 rcases exists_of_bind_eq_ok h with ⟨_, _, h⟩
  cases h
  exact hpersisted

theorem numbers_advanceWorkflow {host : EngineHost} {ledger : Ledger}
    {input : AdvanceWorkflowInput} {plan : WorkflowTransitionPlan}
    (hcheckpoint : ScheduledCheckpoint input.executable ledger input.checkpoint)
    (h : advanceWorkflow host input = Except.ok plan) :
    NumbersAdvance host input plan.checkpoint := by
  rcases exists_advancePasses h with ⟨passes⟩
  rcases passes.observed_spec hcheckpoint with ⟨hobserved, hcurrent⟩
  have hstopped := (passes.stopped_spec hobserved).right.current.trans hcurrent
  have hpersisted := persisted_of_coordinates passes.coordinates
  rcases fresh_numbers hpersisted with ⟨hfresh, hthrough, hbatch⟩
  rcases sameCounters_of_parseCheckpoint passes.parsed with ⟨hstored, hfirst, hpositive⟩
  rw [← hfirst] at hpositive
  have hcount : (planInputOf (schedulerInput input passes.checkpoint
      passes.coordinated)).consumedObservationCount =
        passes.coordinated.persisted.fresh.length := by
    show passes.coordinated.persisted.cursor.consumedThroughEventSequence + 1 -
      passes.checkpoint.nextEventSequence = _
    rw [hthrough]
    omega
  have hconsumed : consumedFacts input = passes.coordinated.persisted.fresh := by
    unfold consumedFacts
    rw [passes.parsed]
    dsimp only
    rw [hpersisted]
  have hplanned : eventsOfAdvance host input = plan.events := by
    unfold eventsOfAdvance
    rw [h]
  rcases plan_numbers passes.plans with ⟨hevents, hnext, hrevision⟩
  rw [hstopped, hcount, hfirst] at hevents hnext
  rw [hstopped, hstored] at hrevision
  have hlength : (numbersOfAdvance host input).length =
      passes.coordinated.persisted.fresh.length + plan.events.length := by
    unfold numbersOfAdvance
    rw [hconsumed, hplanned, List.length_append, List.length_map, List.length_map]
  refine ⟨?_, ?_, hrevision, passes.checkpoint, passes.parsed, ?_⟩
  · rw [hlength, ← List.range'_append_1, ← hevents, ← hfirst, ← hfresh]
    unfold numbersOfAdvance
    rw [hconsumed, hplanned]
  · rw [hnext, hlength, Nat.add_assoc]
  · rw [hconsumed]
    exact hbatch

/-- The consumed facts and the planned events of the advances take each number once, in order,
and every advance takes a revision. -/
structure IsNumbered (host : EngineHost) (inputs : List AdvanceWorkflowInput)
    (checkpoint : WorkflowCheckpoint) : Prop where
  numbers : exists first,
    numbersOfRun host inputs = List.range' first (numbersOfRun host inputs).length ∧
      checkpoint.nextEventSequence = first + (numbersOfRun host inputs).length
  revision : checkpoint.revision = inputs.length
  batches : forall input, input ∈ inputs -> ConsumesBatch input

theorem events_numbered {host : EngineHost} {executable : CompiledWorkflowExecutable}
    {workflowVersionId : String} {budget : Nat} {inputs : List AdvanceWorkflowInput}
    {checkpoint : WorkflowCheckpoint}
    (h : WorkflowRun host executable workflowVersionId budget inputs checkpoint) :
    IsNumbered host inputs checkpoint := by
  apply h.invariant (IsNumbered host)
  · rintro start ⟨nextEventSequence, hcreated⟩
    refine ⟨⟨start.nextEventSequence, rfl, rfl⟩, ?_, fun input hinput => by cases hinput⟩
    unfold createCheckpoint at hcreated
    iterate 3 rcases exists_of_bind_eq_ok hcreated with ⟨_, _, hcreated⟩
    cases hcreated
    rfl
  · rintro inputs _ input _ hrun ⟨⟨first, hnumbers, hnext⟩, hrevision, hbatches⟩
      ⟨rfl, rfl, rfl, plan, hadvance, rfl⟩
    have hadvanced := numbers_advanceWorkflow (scheduled_of_run hrun) hadvance
    have hall : numbersOfRun host (inputs ++ [input]) =
        numbersOfRun host inputs ++ numbersOfAdvance host input := by
      simp [numbersOfRun]
    refine ⟨⟨first, ?_, ?_⟩, ?_, ?_⟩
    · rw [hall, List.length_append, ← List.range'_append_1, ← hnumbers, ← hnext]
      exact congrArg _ hadvanced.numbers
    · rw [hadvanced.next, hnext, hall, List.length_append, Nat.add_assoc]
    · rw [hadvanced.revision, hrevision, List.length_append, List.length_singleton]
    · intro other hother
      rcases List.mem_append.mp hother with hold | hlast
      · exact hbatches other hold
      · rw [List.mem_singleton.mp hlast]
        exact hadvanced.batch

/-- The second advance consumes the outcome of the control as number four. -/
theorem events_numbered_sample :
    exists plan, advanceWorkflow plainHost controlInput = Except.ok plan ∧
      (consumedFacts controlInput).map SequencedFact.sequence = [4] ∧
      numbersOfRun plainHost [startInput, controlInput] = [2, 3, 4, 5, 6] ∧
      IsNumbered plainHost [startInput, controlInput] plan.checkpoint := by
  rcases exists_of_map_eq_ok planned_controlInput with ⟨plan, hplan, hcheckpoint⟩
  have hrun := run_controlInput
  rw [← hcheckpoint] at hrun
  exact ⟨plan, hplan, by decide +kernel, by decide +kernel, events_numbered hrun⟩

end Engine
end Pertexo
