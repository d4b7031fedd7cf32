import Pertexo.Engine.Admissions
import Pertexo.Engine.Runs

/-!
# Attempts of a run

## Counting attempts
-/

namespace Pertexo
namespace Engine

open Library
open Values

variable {executable : CompiledWorkflowExecutable} {ledger : Ledger}

def attemptNumberOf (invocations : List InvocationState) (invocationKey : String) : Nat :=
  ((invocations.find? fun invocation => invocation.invocationKey == invocationKey).map
    InvocationState.attemptNumber).getD 0

def admissionCount (attempts : List AttemptAdmissionPlan) (invocationKey : String) : Nat :=
  (attempts.map AttemptAdmissionPlan.invocationKey).count invocationKey

theorem attemptNumberOf_of_mem {invocations : List InvocationState}
    (hnodup : (invocations.map InvocationState.invocationKey).Nodup)
    {invocation : InvocationState} (hmem : invocation ∈ invocations) :
    attemptNumberOf invocations invocation.invocationKey = invocation.attemptNumber := by
  unfold attemptNumberOf
  cases hfind : invocations.find? fun other =>
      other.invocationKey == invocation.invocationKey with
  | none =>
      have habsent := List.find?_eq_none.mp hfind invocation hmem
      exact absurd (beq_self_eq_true _) habsent
  | some found =>
      have hkey : found.invocationKey = invocation.invocationKey := by
        simpa using List.find?_some hfind
      rw [List.inj_on_of_nodup_map hnodup (List.mem_of_find?_eq_some hfind) hmem hkey]
      rfl

theorem attemptNumberOf_of_absent {invocations : List InvocationState} {invocationKey : String}
    (h : forall invocation, invocation ∈ invocations ->
      invocation.invocationKey ≠ invocationKey) :
    attemptNumberOf invocations invocationKey = 0 := by
  unfold attemptNumberOf
  have hfind : invocations.find? (fun other => other.invocationKey == invocationKey) = none := by
    rw [List.find?_eq_none]
    intro invocation hmem
    simpa using h invocation hmem
  rw [hfind]
  rfl

theorem continues_normalizeScope (invocation : InvocationState) :
    Continues invocation invocation.normalizeScope := by
  rcases normalizeScope_eq invocation with ⟨hkey, hattempt, hstatus, _⟩
  refine ⟨hkey, hattempt.ge, ?_, ?_⟩
  · rw [hstatus]
    exact Relation.ReflTransGen.refl
  · intro hrunning
    exact Or.inr (hstatus ▸ hrunning)

section

variable {source parsed : WorkflowCheckpoint}

theorem ParsedFrom.mem_iff (h : ParsedFrom source parsed) {invocation : InvocationState} :
    invocation ∈ parsed.invocations ↔
      exists original, original ∈ source.invocations ∧
        original.normalizeScope = invocation := by
  rcases h.invocations with ⟨normalized, hperm, hnormalized⟩
  rw [hperm.mem_iff, hnormalized, List.mem_map]

theorem ParsedFrom.source_nodup (h : ParsedFrom source parsed) :
    (source.invocations.map InvocationState.invocationKey).Nodup := by
  rcases h.invocations with ⟨normalized, hperm, hnormalized⟩
  have hnodup := (hperm.map InvocationState.invocationKey).nodup_iff.mp h.invocations_nodup
  have hkeys : InvocationState.invocationKey ∘ InvocationState.normalizeScope =
      InvocationState.invocationKey :=
    funext fun invocation => (normalizeScope_eq invocation).left
  rw [hnormalized, List.map_map, hkeys] at hnodup
  exact hnodup

end

/-!
## The settled state of a plan
-/

section

variable {host : EngineHost} {input : AdvanceWorkflowInput} {plan : WorkflowTransitionPlan}
  {passes : AdvancePasses host input plan}

theorem AdvancePasses.mem_initial (passes : AdvancePasses host input plan)
    {invocation : InvocationState} :
    invocation ∈ passes.initial.invocations ↔ invocation ∈ passes.checkpoint.invocations :=
  Keyed.mem_ofList (parsedFrom_of_parseCheckpoint passes.parsed).invocations_nodup

abbrev AdvancePasses.Planned (passes : AdvancePasses host input plan) :=
  PlanPasses passes.stopped
    (planInputOf (schedulerInput input passes.checkpoint passes.coordinated)) plan

/-- The records of an advance before it prunes them. -/
structure SettledRecords (input : AdvanceWorkflowInput) (ledger : Ledger)
    (before : List InvocationState) (attempts : List AttemptAdmissionPlan)
    (settled : WorkflowTransition) : Prop where
  scheduled : ScheduledState input.executable ledger settled
  version : settled.current.workflowVersionId = input.workflowVersionId
  run : RunChanges input.checkpoint.runStatus settled.runStatus
  kept : forall invocation, invocation ∈ before -> exists kept,
    kept ∈ settled.invocations ∧ Continues invocation kept ∧
      (invocation.status = .running -> kept.status = .running ∨
        kept.status ∈ nodeTransitions .running)
  counted : forall invocation, invocation ∈ settled.invocations ->
    invocation.attemptNumber = attemptNumberOf before invocation.invocationKey +
      admissionCount attempts invocation.invocationKey
  nodup : (attempts.map AttemptAdmissionPlan.invocationKey).Nodup
  admitted : forall attempt, attempt ∈ attempts -> exists invocation,
    invocation ∈ settled.invocations ∧ invocation.invocationKey = attempt.invocationKey ∧
      invocation.attemptNumber = attempt.attemptNumber
  steps : forall attempt, attempt ∈ attempts -> exists invocation,
    invocation ∈ settled.invocations ∧ invocation.invocationKey = attempt.invocationKey ∧
      invocation.nodeId = attempt.nodeId

theorem attemptNumber_of_admitsFrom {state : WorkflowTransition} {progress : AttemptAdmissions}
    (h : AdmitsFrom state progress) {invocation : InvocationState}
    (hmem : invocation ∈ progress.state.invocations) :
    exists origin, origin ∈ state.invocations ∧
      origin.invocationKey = invocation.invocationKey ∧
      invocation.attemptNumber = origin.attemptNumber +
        admissionCount progress.attempts invocation.invocationKey := by
  have hscope : invocation.scope ∈ state.scopes := by
    rw [← h.same.scopes]
    exact mem_scopesOf hmem
  rcases hscope with ⟨origin, horigin, hsame⟩
  have hkey : origin.invocationKey = invocation.invocationKey := congrArg StepScope.key hsame
  refine ⟨origin, horigin, hkey, ?_⟩
  rw [← hkey, admissionCount]
  by_cases hadmitted :
      origin.invocationKey ∈ progress.attempts.map AttemptAdmissionPlan.invocationKey
  · have heq : runningAttempt origin = invocation :=
      Keyed.eq_of_mem_of_key_eq (h.admitted origin horigin hadmitted) hmem hkey
    rw [← heq, List.count_eq_one_of_mem h.nodup hadmitted]
    rfl
  · have heq : origin = invocation :=
      Keyed.eq_of_mem_of_key_eq (h.kept origin horigin hadmitted) hmem hkey
    rw [← heq, List.count_eq_zero.mpr hadmitted]
    rfl

theorem AdvancePasses.kept_spec (passes : AdvancePasses host input plan) (planned : passes.Planned)
    (hcheckpoint : ScheduledCheckpoint input.executable ledger input.checkpoint)
    {invocation : InvocationState} (hmem : invocation ∈ passes.checkpoint.invocations) :
    exists kept, kept ∈ planned.settled.invocations ∧ Continues invocation kept ∧
      (invocation.status = .running -> kept.status = .running ∨
        kept.status ∈ nodeTransitions .running) := by
  rcases passes.started_spec hcheckpoint with ⟨started, _, hresumes, hobserved, hextends⟩
  have hstopped := hextends.trans (passes.stopped_spec hobserved).right
  rcases hresumes invocation (passes.mem_initial.mpr hmem) with ⟨resumed, hresumed, hfirst⟩
  rcases hstopped.progress resumed hresumed with ⟨stopped, hmemStopped, hsecond⟩
  rcases planned.keeps stopped hmemStopped with ⟨kept, hkept, hthird⟩
  refine ⟨kept, hkept, (hfirst.continues.trans hsecond.continues).trans hthird.continues, ?_⟩
  intro hrunning
  rw [hfirst.running hrunning] at hsecond
  have hsettles : NodeSettles .running stopped.status := hrunning ▸ hsecond.settles
  cases hthird with
  | kept => exact hsettles.mem_of_running
  | admitted hready =>
      rw [hready] at hsettles
      exact absurd hsettles.mem_of_running (by decide)

theorem AdvancePasses.counted_spec (passes : AdvancePasses host input plan)
    (planned : passes.Planned)
    (hcheckpoint : ScheduledCheckpoint input.executable ledger input.checkpoint)
    {invocation : InvocationState} (hmem : invocation ∈ planned.settled.invocations) :
    invocation.attemptNumber =
      attemptNumberOf passes.checkpoint.invocations invocation.invocationKey +
        admissionCount plan.attempts invocation.invocationKey := by
  rcases passes.started_spec hcheckpoint with ⟨started, hsame, hresumes, hobserved, hextends⟩
  have hstopped := hextends.trans (passes.stopped_spec hobserved).right
  rw [planned.invocations] at hmem
  rcases attemptNumber_of_admitsFrom planned.admitsFrom hmem with
    ⟨stopped, hmemStopped, hkey, hcount⟩
  rw [hcount, planned.attempts, ← hkey]
  congr 1
  by_cases hknown : exists origin, origin ∈ passes.checkpoint.invocations ∧
      origin.invocationKey = stopped.invocationKey
  · rcases hknown with ⟨origin, horigin, hsameKey⟩
    rcases hresumes origin (passes.mem_initial.mpr horigin) with ⟨resumed, hresumed, hfirst⟩
    rcases hstopped.progress resumed hresumed with ⟨kept, hkept, hsecond⟩
    have heq : kept = stopped := by
      apply Keyed.eq_of_mem_of_key_eq hkept hmemStopped
      exact (hsecond.key.trans hfirst.key).trans hsameKey
    rw [← hsameKey, attemptNumberOf_of_mem
      (parsedFrom_of_parseCheckpoint passes.parsed).invocations_nodup horigin, ← heq]
    exact hsecond.attempt.trans hfirst.attempt
  · have habsent : forall origin, origin ∈ passes.checkpoint.invocations ->
        origin.invocationKey ≠ stopped.invocationKey := by
      intro origin horigin hsameKey
      exact hknown ⟨origin, horigin, hsameKey⟩
    rw [attemptNumberOf_of_absent habsent]
    rcases hstopped.born stopped hmemStopped with hscope | hzero
    · rw [hsame.scopes] at hscope
      rcases hscope with ⟨origin, horigin, hscopes⟩
      exact absurd (congrArg StepScope.key hscopes)
        (habsent origin (passes.mem_initial.mp horigin))
    · exact hzero

theorem attemptNumberOf_parsed {source parsed : WorkflowCheckpoint}
    (h : ParsedFrom source parsed) (invocationKey : String) :
    attemptNumberOf parsed.invocations invocationKey =
      attemptNumberOf source.invocations invocationKey := by
  by_cases hknown : exists origin, origin ∈ source.invocations ∧
      origin.invocationKey = invocationKey
  · rcases hknown with ⟨origin, horigin, rfl⟩
    have hnormalized : origin.normalizeScope ∈ parsed.invocations :=
      h.mem_iff.mpr ⟨origin, horigin, rfl⟩
    have hparsed := attemptNumberOf_of_mem h.invocations_nodup hnormalized
    rw [(normalizeScope_eq origin).left, (normalizeScope_eq origin).right.left] at hparsed
    rw [hparsed, attemptNumberOf_of_mem h.source_nodup horigin]
  · have habsent : forall origin, origin ∈ source.invocations ->
        origin.invocationKey ≠ invocationKey := by
      intro origin horigin hkey
      exact hknown ⟨origin, horigin, hkey⟩
    rw [attemptNumberOf_of_absent habsent, attemptNumberOf_of_absent]
    intro invocation hmem hkey
    rcases h.mem_iff.mp hmem with ⟨origin, horigin, rfl⟩
    exact habsent origin horigin ((normalizeScope_eq origin).left.symm.trans hkey)

theorem AdvancePasses.settledRecords (passes : AdvancePasses host input plan)
    (planned : passes.Planned)
    (hcheckpoint : ScheduledCheckpoint input.executable ledger input.checkpoint) :
    SettledRecords input (ledger.record (admissionsOfAdvance host input))
      input.checkpoint.invocations plan.attempts planned.settled := by
  have hparsed := parsedFrom_of_parseCheckpoint passes.parsed
  rcases passes.started_spec hcheckpoint with ⟨started, hsame, _, hobserved, hextends⟩
  rcases passes.stopped_spec hobserved with ⟨hscheduled, hstopped⟩
  have hall := hextends.trans hstopped
  constructor
  · exact hscheduled.of_sameScopes planned.same
  · rw [planned.same.current, hall.current, hsame.current]
    exact passes.version
  · rw [← hparsed.runStatus]
    exact (hsame.run.trans hall.run).trans planned.same.run
  · intro invocation hmem
    have hnormalized := hparsed.mem_iff.mpr ⟨invocation, hmem, rfl⟩
    rcases passes.kept_spec planned hcheckpoint hnormalized with ⟨kept, hkept, hcontinues, hrunning⟩
    refine ⟨kept, hkept, (continues_normalizeScope invocation).trans hcontinues, ?_⟩
    intro hbefore
    exact hrunning ((normalizeScope_eq invocation).right.right.left.trans hbefore)
  · intro invocation hmem
    rw [← attemptNumberOf_parsed hparsed]
    exact passes.counted_spec planned hcheckpoint hmem
  · rw [planned.attempts]
    exact planned.admitsFrom.nodup
  · intro attempt hattempt
    rw [planned.attempts] at hattempt
    rcases planned.admitsFrom.attempts attempt hattempt with ⟨ready, hready, hof⟩
    refine ⟨runningAttempt ready, ?_, hof.invocationKey.symm, hof.attemptNumber.symm⟩
    rw [planned.invocations]
    apply planned.admitsFrom.admitted ready hready
    rw [← hof.invocationKey]
    exact List.mem_map_of_mem hattempt
  · intro attempt hattempt
    rw [planned.attempts] at hattempt
    rcases planned.admitsFrom.steps attempt hattempt with ⟨ready, hready, hkey, hnode⟩
    refine ⟨runningAttempt ready, ?_, hkey, hnode⟩
    rw [planned.invocations]
    apply planned.admitsFrom.admitted ready hready
    rw [hkey]
    exact List.mem_map_of_mem hattempt

end

/-!
## Invocations that are kept or closed

Pruning closes the paths of the invocations it removes, so no later invocation
takes up their keys.
-/

def prunedPaths (state : WorkflowTransition) : Set IterationPath :=
  { path | exists invocation, invocation ∈ state.invocations ∧
    invocation ∉ (pruneFinishedIterations state).invocations ∧ invocation.scope.path = path }

theorem scheduled_prune_leave {state : WorkflowTransition}
    (hstate : ScheduledState executable ledger state) :
    Scheduled executable state.current.workflowVersionId
      (ledger.leave (prunedPaths state))
      (pruneFinishedIterations state).invocations (pruneFinishedIterations state).loops := by
  have hpruned := scheduled_prune hstate
  refine ⟨hpruned.nested, hpruned.addressed, hpruned.recorded.leave ?_, hpruned.fits⟩
  rintro _ ⟨invocation, hmem, hremoved, rfl⟩
  have hkey : invocation.invocationKey ∈
      prunedKeysOf state.invocations.items state.loops.items := by
    by_contra hkept
    apply hremoved
    refine List.mem_filter.mpr ⟨hmem, ?_⟩
    simpa using hkept
  rw [mem_prunedKeys_iff hstate hmem] at hkey
  rw [scopesOf_pruned hstate]
  exact (isClosed_of_not_isKept (allReleased hstate) hkey).settle (settles_pruned hstate)

/-- An invocation of the key is there and has the property, or its path is closed. -/
def Tracked (executable : CompiledWorkflowExecutable) (workflowVersionId : String)
    (left : Set IterationPath) (invocations : List InvocationState) (invocationKey : String)
    (P : InvocationState -> Prop) : Prop :=
  (exists invocation, invocation ∈ invocations ∧ invocation.invocationKey = invocationKey ∧
    P invocation) ∨
  exists scope, IsAddress executable workflowVersionId scope ∧ scope.key = invocationKey ∧
    scope.path ∈ left

theorem Scheduled.not_left {workflowVersionId : String} {invocations : List InvocationState}
    {loops : List LoopState}
    (h : Scheduled executable workflowVersionId ledger invocations loops)
    {invocation : InvocationState} (hmem : invocation ∈ invocations) :
    invocation.scope.path ∉ ledger.left := by
  intro hleft
  rcases h.recorded.closed _ hleft with ⟨window, ordinal, hcloses⟩
  exact hcloses.empty _ (mem_scopesOf hmem) hcloses.covers

theorem Tracked.eq {workflowVersionId invocationKey : String}
    {invocations : List InvocationState} {loops : List LoopState} {P : InvocationState -> Prop}
    (hscheduled : Scheduled executable workflowVersionId ledger invocations loops)
    (hnodup : (invocations.map InvocationState.invocationKey).Nodup)
    (h : Tracked executable workflowVersionId ledger.left invocations invocationKey P)
    {invocation : InvocationState} (hmem : invocation ∈ invocations)
    (hkey : invocation.invocationKey = invocationKey) : P invocation := by
  rcases h with ⟨known, hknown, hsame, hholds⟩ | ⟨scope, haddress, hsame, hleft⟩
  · have heq := List.inj_on_of_nodup_map hnodup hmem hknown (hkey.trans hsame.symm)
    rw [heq]
    exact hholds
  · have hown := hscheduled.addressed invocation.scope (mem_scopesOf hmem)
    have hpath := (haddress.eq_of_key_eq hown (hsame.trans hkey.symm)).right
    rw [hpath] at hleft
    exact absurd hleft (hscheduled.not_left hmem)

/-- What holds of an invocation before pruning holds of it afterwards, or it is gone. -/
theorem tracked_of_settled {state : WorkflowTransition} {plan : WorkflowTransitionPlan}
    {input : PlanInput} (planned : PlanPasses state input plan) {workflowVersionId : String}
    (hsettled : ScheduledState executable ledger planned.settled)
    (hversion : planned.settled.current.workflowVersionId = workflowVersionId)
    {P : InvocationState -> Prop} (hstable : forall a b, Continues a b -> P a -> P b)
    {invocation : InvocationState} (hmem : invocation ∈ planned.settled.invocations)
    (h : P invocation) :
    Tracked executable workflowVersionId (ledger.leave (prunedPaths planned.settled)).left
      plan.checkpoint.invocations invocation.invocationKey P := by
  have hparsed := parsedFrom_of_parseCheckpoint planned.parsed
  by_cases hkept : invocation ∈ (pruneFinishedIterations planned.settled).invocations
  · apply Or.inl
    exact ⟨invocation.normalizeScope, hparsed.mem_iff.mpr ⟨invocation, hkept, rfl⟩,
      (normalizeScope_eq invocation).left, hstable _ _ (continues_normalizeScope invocation) h⟩
  · apply Or.inr
    refine ⟨invocation.scope, ?_, rfl, Or.inr ⟨invocation, hmem, hkept, rfl⟩⟩
    rw [← hversion]
    exact hsettled.records.addressed _ (mem_scopesOf hmem)

/-!
## Advances and runs
-/

/-- A checkpoint of a run, under a ledger that also knows the closed paths. -/
structure RunRecords (executable : CompiledWorkflowExecutable) (workflowVersionId : String)
    (ledger : Ledger) (checkpoint : WorkflowCheckpoint) : Prop where
  version : checkpoint.workflowVersionId = workflowVersionId
  scheduled : ScheduledCheckpoint executable ledger checkpoint
  nodup : (checkpoint.invocations.map InvocationState.invocationKey).Nodup

theorem RunRecords.eq_of_tracked {workflowVersionId invocationKey : String}
    {checkpoint : WorkflowCheckpoint} {P : InvocationState -> Prop}
    (h : RunRecords executable workflowVersionId ledger checkpoint)
    (htracked : Tracked executable workflowVersionId ledger.left checkpoint.invocations
      invocationKey P) {invocation : InvocationState} (hmem : invocation ∈ checkpoint.invocations)
    (hkey : invocation.invocationKey = invocationKey) : P invocation := by
  rw [← h.version] at htracked
  exact htracked.eq h.scheduled h.nodup hmem hkey

structure AdvanceRecords (host : EngineHost) (input : AdvanceWorkflowInput) (ledger : Ledger)
    (plan : WorkflowTransitionPlan) (settled : WorkflowTransition) (paths : Set IterationPath) :
    Prop where
  records : SettledRecords input (ledger.record (admissionsOfAdvance host input))
    input.checkpoint.invocations plan.attempts settled
  planned : RunRecords input.executable input.workflowVersionId
    ((ledger.record (admissionsOfAdvance host input)).leave paths) plan.checkpoint
  run : RunChanges input.checkpoint.runStatus plan.checkpoint.runStatus
  tracked : forall (P : InvocationState -> Prop), (forall a b, Continues a b -> P a -> P b) ->
    forall invocation, invocation ∈ settled.invocations -> P invocation ->
      Tracked input.executable input.workflowVersionId (ledger.left ∪ paths)
        plan.checkpoint.invocations invocation.invocationKey P
  origin : forall invocation, invocation ∈ plan.checkpoint.invocations ->
    exists source, source ∈ settled.invocations ∧ source.normalizeScope = invocation

theorem AdvancePasses.records {host : EngineHost} {input : AdvanceWorkflowInput}
    {plan : WorkflowTransitionPlan} (passes : AdvancePasses host input plan)
    (planned : passes.Planned)
    (hcheckpoint : ScheduledCheckpoint input.executable ledger input.checkpoint) :
    AdvanceRecords host input ledger plan planned.settled (prunedPaths planned.settled) := by
  have hsettled := passes.settledRecords planned hcheckpoint
  have hparsed := parsedFrom_of_parseCheckpoint planned.parsed
  refine ⟨hsettled, ⟨?_, ?_, ?_⟩, ?_, ?_, ?_⟩
  · rw [hparsed.workflowVersionId]
    exact hsettled.version
  · have hpruned : ScheduledCheckpoint input.executable
        ((ledger.record (admissionsOfAdvance host input)).leave (prunedPaths planned.settled))
        (plannedCheckpoint planned.settled (pruneFinishedIterations planned.settled)
          planned.admittedKeys planned.nextEventSequence) :=
      scheduled_prune_leave hsettled.scheduled
    exact hpruned.parse planned.parsed
  · exact hparsed.invocations_nodup
  · rw [hparsed.runStatus]
    exact hsettled.run
  · intro P hstable invocation hmem hholds
    exact tracked_of_settled planned hsettled.scheduled hsettled.version hstable hmem hholds
  · intro invocation hmem
    rcases hparsed.mem_iff.mp hmem with ⟨source, hsource, hnormalized⟩
    exact ⟨source, (List.mem_filter.mp hsource).left, hnormalized⟩

theorem exists_advanceRecords {host : EngineHost} {input : AdvanceWorkflowInput}
    {plan : WorkflowTransitionPlan}
    (hcheckpoint : ScheduledCheckpoint input.executable ledger input.checkpoint)
    (h : advanceWorkflow host input = Except.ok plan) :
    exists settled paths, AdvanceRecords host input ledger plan settled paths := by
  rcases exists_advancePasses h with ⟨passes⟩
  rcases exists_planPasses passes.plans with ⟨planned⟩
  exact ⟨_, _, passes.records planned hcheckpoint⟩

theorem AdvanceRecords.tracks {host : EngineHost} {input : AdvanceWorkflowInput}
    {plan : WorkflowTransitionPlan} {settled : WorkflowTransition} {paths : Set IterationPath}
    (h : AdvanceRecords host input ledger plan settled paths) {invocationKey : String}
    {P : InvocationState -> Prop} (hstable : forall a b, Continues a b -> P a -> P b)
    (htracked : Tracked input.executable input.workflowVersionId ledger.left
      input.checkpoint.invocations invocationKey P) :
    Tracked input.executable input.workflowVersionId (ledger.left ∪ paths)
      plan.checkpoint.invocations invocationKey P := by
  rcases htracked with ⟨invocation, hmem, rfl, hholds⟩ | ⟨scope, haddress, hkey, hleft⟩
  · rcases h.records.kept invocation hmem with ⟨kept, hkept, hcontinues, _⟩
    rw [← hcontinues.key]
    exact h.tracked P hstable kept hkept (hstable _ _ hcontinues hholds)
  · exact Or.inr ⟨scope, haddress, hkey, Or.inl hleft⟩

theorem runRecords_created {workflowVersionId : String} {budget : Nat}
    {checkpoint : WorkflowCheckpoint} (h : IsCreated workflowVersionId budget checkpoint) :
    RunRecords executable workflowVersionId { admissions := [], left := ∅ } checkpoint where
  version := by
    rcases h with ⟨_, hcreated⟩
    unfold createCheckpoint at hcreated
    rcases exists_of_bind_eq_ok hcreated with ⟨_, _, hrest⟩
    rcases exists_of_bind_eq_ok hrest with ⟨_, _, hrest⟩
    rcases exists_of_bind_eq_ok hrest with ⟨_, _, hdone⟩
    cases hdone
    rfl
  scheduled := by
    rcases created_eq h with ⟨hinvocations, hloops, _⟩
    exact scheduled_created hinvocations hloops
  nodup := by
    rw [(created_eq h).left]
    exact List.nodup_nil

theorem runRecords_of_run {host : EngineHost} {workflowVersionId : String} {budget : Nat}
    {inputs : List AdvanceWorkflowInput} {checkpoint : WorkflowCheckpoint}
    (h : WorkflowRun host executable workflowVersionId budget inputs checkpoint) :
    exists ledger, RunRecords executable workflowVersionId ledger checkpoint := by
  apply h.invariant fun _ checkpoint =>
    exists ledger, RunRecords executable workflowVersionId ledger checkpoint
  · intro start hstart
    exact ⟨_, runRecords_created hstart⟩
  · rintro inputs _ input _ _ ⟨ledger, hrecords⟩ ⟨rfl, rfl, rfl, plan, hadvance, rfl⟩
    rcases exists_advanceRecords hrecords.scheduled hadvance with ⟨_, _, hadvanced⟩
    exact ⟨_, hadvanced.planned⟩

/-- A later part of a run, from one of its checkpoints on. -/
abbrev WorkflowContinuation (host : EngineHost) (executable : CompiledWorkflowExecutable)
    (workflowVersionId : String) (before : WorkflowCheckpoint) :
    List AdvanceWorkflowInput -> WorkflowCheckpoint -> Prop :=
  Run (fun checkpoint => checkpoint = before) (Advances host executable workflowVersionId)

theorem continues_of_run {host : EngineHost} {workflowVersionId : String} {budget : Nat}
    {inputs more : List AdvanceWorkflowInput} {before after : WorkflowCheckpoint}
    (hrun : WorkflowRun host executable workflowVersionId budget inputs before)
    (hmore : WorkflowContinuation host executable workflowVersionId before more after) :
    RunChanges before.runStatus after.runStatus ∧
      forall invocation, invocation ∈ before.invocations ->
        forall later, later ∈ after.invocations ->
          later.invocationKey = invocation.invocationKey -> Continues invocation later := by
  have hinvariant : exists ledger,
      RunRecords executable workflowVersionId ledger after ∧
        RunChanges before.runStatus after.runStatus ∧
        forall invocation, invocation ∈ before.invocations ->
          Tracked executable workflowVersionId ledger.left after.invocations
            invocation.invocationKey (Continues invocation) := by
    apply hmore.invariant fun _ checkpoint => exists ledger,
      RunRecords executable workflowVersionId ledger checkpoint ∧
        RunChanges before.runStatus checkpoint.runStatus ∧
        forall invocation, invocation ∈ before.invocations ->
          Tracked executable workflowVersionId ledger.left checkpoint.invocations
            invocation.invocationKey (Continues invocation)
    · rintro _ rfl
      rcases runRecords_of_run hrun with ⟨ledger, hrecords⟩
      refine ⟨ledger, hrecords, Relation.ReflTransGen.refl, ?_⟩
      intro invocation hmem
      exact Or.inl ⟨invocation, hmem, rfl, Continues.refl invocation⟩
    · rintro _ _ input _ _ ⟨ledger, hrecords, hchanges, htracked⟩
        ⟨rfl, rfl, rfl, plan, hadvance, rfl⟩
      rcases exists_advanceRecords hrecords.scheduled hadvance with ⟨_, _, hadvanced⟩
      refine ⟨_, hadvanced.planned, hchanges.trans hadvanced.run, ?_⟩
      intro invocation hmem
      exact hadvanced.tracks (fun _ _ hstep hbefore => hbefore.trans hstep)
        (htracked invocation hmem)
  rcases hinvariant with ⟨ledger, hrecords, hchanges, htracked⟩
  refine ⟨hchanges, ?_⟩
  intro invocation hmem later hlater hkey
  exact hrecords.eq_of_tracked (htracked invocation hmem) hlater hkey

end Engine
end Pertexo
