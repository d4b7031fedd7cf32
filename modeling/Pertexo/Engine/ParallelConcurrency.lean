import Mathlib.Data.List.Perm.Subperm
import Pertexo.Engine.Admissions
import Pertexo.Engine.AttemptDiscipline
import Pertexo.Engine.ParallelCaps
import Pertexo.Engine.RunningFrame
import Pertexo.Library.CappedAdmission

/-!
# Concurrency of parallel branches

## Counters

The counters of an admission pass start with the running invocations, and every
admitted invocation counts once against each of its caps.
-/

namespace Pertexo
namespace Engine

open Library
open Values

def countsAgainst (nodes : SchedulerNodeLookup) (cap : ParallelConstraint)
    (invocation : InvocationState) : Bool :=
  invocation.status == .running && (capsOf nodes invocation).contains cap

def runningUnder (nodes : SchedulerNodeLookup) (invocations : List InvocationState)
    (cap : ParallelConstraint) : Nat :=
  invocations.countP (countsAgainst nodes cap)

/-- The scopes of the running invocations can be read. -/
def ReadsRunning (nodes : SchedulerNodeLookup) (invocations : List InvocationState) : Prop :=
  forall invocation, invocation ∈ invocations -> invocation.status = .running ->
    exists limits, parallelLimits nodes invocation = Except.ok limits

section

variable {nodes : SchedulerNodeLookup}

theorem activeCount_countLimit (counts : ActiveCounts) (limit : ParallelLimit)
    (cap : ParallelConstraint) :
    activeCount (countLimit counts limit) cap =
      activeCount counts cap + if limit.constraint = cap then 1 else 0 := by
  rw [countLimit, activeCount, Keyed.get?_set]
  by_cases h : cap = limit.constraint
  · rw [if_pos h, if_pos h.symm, h]
    rfl
  · rw [if_neg h, if_neg fun hsame => h hsame.symm]
    rfl

theorem activeCount_foldl (limits : List ParallelLimit) (counts : ActiveCounts)
    (cap : ParallelConstraint) :
    activeCount (limits.foldl countLimit counts) cap =
      activeCount counts cap + (limits.map ParallelLimit.constraint).count cap := by
  induction limits generalizing counts with
  | nil => rfl
  | cons limit rest ih =>
      rw [List.foldl_cons, ih, activeCount_countLimit, List.map_cons, List.count_cons]
      simp only [beq_iff_eq]
      omega

theorem activeCount_empty (cap : ParallelConstraint) :
    activeCount Keyed.empty cap = 0 :=
  rfl

theorem count_capsOf (cap : ParallelConstraint) (invocation : InvocationState) :
    (capsOf nodes invocation).count cap =
      if (capsOf nodes invocation).contains cap then 1 else 0 := by
  by_cases h : cap ∈ capsOf nodes invocation
  · rw [List.count_eq_one_of_mem nodup_capsOf h, if_pos (List.contains_iff_mem.mpr h)]
  · rw [List.count_eq_zero_of_not_mem h, if_neg fun hmem => h (List.contains_iff_mem.mp hmem)]

theorem countRunning_spec {counts after : ActiveCounts} {invocation : InvocationState}
    (h : countRunning nodes counts invocation = Except.ok after) :
    (invocation.status = .running ->
        exists limits, parallelLimits nodes invocation = Except.ok limits) ∧
      forall cap, activeCount after cap =
        activeCount counts cap + if countsAgainst nodes cap invocation then 1 else 0 := by
  unfold countRunning at h
  split at h
  · next hstatus =>
    cases h
    rw [bne_iff_ne] at hstatus
    refine ⟨fun hrunning => absurd hrunning hstatus, ?_⟩
    intro cap
    have hfalse : countsAgainst nodes cap invocation = false := by
      rw [countsAgainst, beq_eq_false_iff_ne.mpr hstatus]
      rfl
    rw [hfalse]
    rfl
  · next hstatus =>
    rcases exists_of_bind_eq_ok h with ⟨limits, hlimits, hafter⟩
    cases hafter
    have hrunning : (invocation.status == .running) = true := by
      simpa using hstatus
    refine ⟨fun _ => ⟨limits, hlimits⟩, ?_⟩
    intro cap
    rw [activeCount_foldl, ← capsOf_eq hlimits, count_capsOf, countsAgainst, hrunning,
      Bool.true_and]

theorem countRunning_foldlM {invocations : List InvocationState} {counts after : ActiveCounts}
    (h : invocations.foldlM (countRunning nodes) counts = Except.ok after) :
    ReadsRunning nodes invocations ∧
      forall cap, activeCount after cap =
        activeCount counts cap + runningUnder nodes invocations cap := by
  induction invocations generalizing counts with
  | nil =>
      cases h
      refine ⟨?_, fun _ => rfl⟩
      intro invocation hmem
      cases hmem
  | cons invocation rest ih =>
      rw [List.foldlM_cons] at h
      rcases exists_of_bind_eq_ok h with ⟨middle, hstep, hrest⟩
      rcases countRunning_spec hstep with ⟨hread, hcount⟩
      rcases ih hrest with ⟨hreads, hcounts⟩
      constructor
      · intro other hother hrunning
        rcases List.mem_cons.mp hother with rfl | hlater
        · exact hread hrunning
        · exact hreads other hlater hrunning
      · intro cap
        rw [hcounts cap, hcount cap, runningUnder, runningUnder, List.countP_cons]
        omega

/-!
## The greedy pass
-/

def keyCaps (nodes : SchedulerNodeLookup) (invocations : InvocationMap) (key : String) :
    List ParallelConstraint :=
  match invocations.get? key with
  | none => []
  | some invocation => capsOf nodes invocation

theorem keyCaps_of_mem {invocations : InvocationMap} {invocation : InvocationState}
    (h : invocation ∈ invocations) :
    keyCaps nodes invocations invocation.invocationKey = capsOf nodes invocation := by
  rw [keyCaps, Keyed.get?_of_mem h]

theorem nodup_keyCaps (invocations : InvocationMap) (key : String) :
    (keyCaps nodes invocations key).Nodup := by
  unfold keyCaps
  split
  · exact List.nodup_nil
  · exact nodup_capsOf

def AdmissionProgress.caps (progress : AdmissionProgress) :
    CapProgress String ParallelConstraint :=
  { used := activeCount progress.active, admitted := progress.admitted }

theorem admitWithinLimits_step {invocations : InvocationMap} {maximumAdmissions : Nat}
    {progress after : AdmissionProgress} {invocation : InvocationState}
    (hmem : invocation ∈ invocations)
    (h : admitWithinLimits nodes invocations maximumAdmissions progress
      invocation.invocationKey = Except.ok after) :
    AdmissionStep (keyCaps nodes invocations) (capLimit nodes) maximumAdmissions progress.caps
        invocation.invocationKey after.caps ∧
      (after = progress ∨ exists limits, parallelLimits nodes invocation = Except.ok limits) := by
  unfold admitWithinLimits at h
  split at h
  · next hmaximum =>
    cases h
    exact ⟨AdmissionStep.reached hmaximum, Or.inl rfl⟩
  · next hroom =>
    rw [Keyed.get?_of_mem hmem] at h
    dsimp only at h
    rcases exists_of_bind_eq_ok h with ⟨limits, hlimits, hafter⟩
    have hcaps := capsOf_eq hlimits
    have hkey : keyCaps nodes invocations invocation.invocationKey = capsOf nodes invocation :=
      keyCaps_of_mem hmem
    split at hafter
    · next hfull =>
      cases hafter
      rcases List.any_eq_true.mp hfull with ⟨limit, hlimit, hreached⟩
      rcases isCapAt_of_mem hlimits hlimit with ⟨_, hcap⟩
      refine ⟨AdmissionStep.full limit.constraint ?_ ?_, Or.inl rfl⟩
      · rw [hkey, hcaps]
        exact List.mem_map_of_mem hlimit
      · rw [← hcap.limit_eq]
        exact of_decide_eq_true hreached
    · next hfree =>
      cases hafter
      refine ⟨?_, Or.inr ⟨limits, hlimits⟩⟩
      have hused : activeCount (limits.foldl countLimit progress.active) =
          useCaps (activeCount progress.active)
            (keyCaps nodes invocations invocation.invocationKey) := by
        funext cap
        rw [activeCount_foldl, hkey, hcaps, useCaps]
      have hstep : AdmissionStep (keyCaps nodes invocations) (capLimit nodes) maximumAdmissions
          progress.caps invocation.invocationKey
          { used := useCaps progress.caps.used
              (keyCaps nodes invocations invocation.invocationKey)
            admitted := progress.caps.admitted ++ [invocation.invocationKey] } := by
        apply AdmissionStep.admitted
        · exact Nat.lt_of_not_le hroom
        · intro cap hmemCap
          rw [hkey, hcaps] at hmemCap
          rcases List.mem_map.mp hmemCap with ⟨limit, hlimit, rfl⟩
          rcases isCapAt_of_mem hlimits hlimit with ⟨_, hcap⟩
          rw [← hcap.limit_eq]
          apply Nat.lt_of_not_le
          intro hreached
          exact hfree (List.any_eq_true.mpr ⟨limit, hlimit, decide_eq_true hreached⟩)
      show AdmissionStep (keyCaps nodes invocations) (capLimit nodes) maximumAdmissions
        progress.caps invocation.invocationKey
        { used := activeCount (limits.foldl countLimit progress.active)
          admitted := progress.admitted ++ [invocation.invocationKey] }
      rw [hused]
      exact hstep

theorem admitWithinLimits_run {invocations : InvocationMap} {maximumAdmissions : Nat}
    {keys : List String} {progress after : AdmissionProgress}
    (hkeys : forall key, key ∈ keys -> exists invocation, invocation ∈ invocations ∧
      invocation.invocationKey = key)
    (h : keys.foldlM (admitWithinLimits nodes invocations maximumAdmissions) progress =
      Except.ok after) :
    AdmissionRun (keyCaps nodes invocations) (capLimit nodes) maximumAdmissions progress.caps keys
        after.caps ∧
      forall key, key ∈ after.admitted -> key ∈ progress.admitted ∨
        exists invocation limits, invocation ∈ invocations ∧ invocation.invocationKey = key ∧
          parallelLimits nodes invocation = Except.ok limits := by
  induction keys generalizing progress with
  | nil =>
      cases h
      exact ⟨AdmissionRun.done _, fun _ hkey => Or.inl hkey⟩
  | cons key rest ih =>
      rw [List.foldlM_cons] at h
      rcases exists_of_bind_eq_ok h with ⟨middle, hstep, hrest⟩
      rcases hkeys key (List.mem_cons_self ..) with ⟨invocation, hmem, rfl⟩
      rcases admitWithinLimits_step hmem hstep with ⟨hadmission, hread⟩
      rcases ih (fun other hother => hkeys other (List.mem_cons_of_mem _ hother)) hrest with
        ⟨hrun, hreads⟩
      refine ⟨AdmissionRun.next hadmission hrun, ?_⟩
      intro other hother
      rcases hreads other hother with hmiddle | hlater
      · rcases hread with rfl | ⟨limits, hlimits⟩
        · exact Or.inl hmiddle
        · rcases hadmission.mem_cases hmiddle with hold | rfl
          · exact Or.inl hold
          · exact Or.inr ⟨invocation, limits, hmem, rfl, hlimits⟩
      · exact Or.inr hlater

end

/-!
## Counts of admitted invocations
-/

section

variable {nodes : SchedulerNodeLookup}

theorem runningUnder_admitAttempt {state : WorkflowTransition}
    {progress after : AttemptAdmissions} {key : String} (h : AdmitsFrom state progress)
    (hstep : admitAttempt progress key = Except.ok after) (cap : ParallelConstraint) :
    runningUnder nodes after.state.invocations.items cap =
      runningUnder nodes progress.state.invocations.items cap +
        (keyCaps nodes state.invocations key).count cap := by
  rcases admitAttempt_spec hstep with ⟨ready, attempt, hmem, hattempt, rfl, _, hstate, _⟩
  rcases h.unadmitted hmem hattempt.status with ⟨hready, _⟩
  have hkey : InvocationState.invocationKey ready = (runningAttempt ready).invocationKey := rfl
  have hcount := Keyed.countP_set (countsAgainst nodes cap) hmem hkey
  have hbefore : countsAgainst nodes cap ready = false := by
    rw [countsAgainst, hattempt.status]
    rfl
  have hafter : countsAgainst nodes cap (runningAttempt ready) =
      (capsOf nodes ready).contains cap := by
    have hscope : (runningAttempt ready).scope = ready.scope := rfl
    rw [countsAgainst, capsOf_of_scope hscope]
    rfl
  rw [hbefore, hafter, ← count_capsOf] at hcount
  rw [hstate, keyCaps_of_mem hready]
  exact hcount

theorem admitAttempts_counts (nodes : SchedulerNodeLookup) {state : WorkflowTransition}
    {keys : List String} {progress after : AttemptAdmissions}
    (hprogress : AdmitsFrom state progress)
    (h : keys.foldlM admitAttempt progress = Except.ok after) :
    after.attempts.map AttemptAdmissionPlan.invocationKey =
        progress.attempts.map AttemptAdmissionPlan.invocationKey ++ keys ∧
      forall cap, runningUnder nodes after.state.invocations.items cap =
        runningUnder nodes progress.state.invocations.items cap +
          (keys.flatMap (keyCaps nodes state.invocations)).count cap := by
  induction keys generalizing progress with
  | nil =>
      cases h
      exact ⟨(List.append_nil _).symm, fun _ => rfl⟩
  | cons key rest ih =>
      rw [List.foldlM_cons] at h
      rcases exists_of_bind_eq_ok h with ⟨middle, hstep, hrest⟩
      rcases ih (hprogress.step hstep) hrest with ⟨hattempts, hcounts⟩
      constructor
      · rcases admitAttempt_spec hstep with ⟨ready, attempt, _, hof, hkey, _, _, hadded⟩
        rw [hattempts, hadded, List.map_append, List.map_singleton, hof.invocationKey, hkey,
          List.append_assoc]
        rfl
      · intro cap
        rw [hcounts cap, runningUnder_admitAttempt hprogress hstep, List.flatMap_cons,
          List.count_append, Nat.add_assoc]

/-!
## Caps that hold
-/

/-- The scopes of the running invocations are read, and no cap is exceeded. -/
structure HoldsCaps (nodes : SchedulerNodeLookup) (invocations : List InvocationState) : Prop where
  reads : ReadsRunning nodes invocations
  within : forall cap, runningUnder nodes invocations cap ≤ capLimit nodes cap

/-- Every invocation that runs has run before, in its scope. -/
def KeepsRunning (before after : List InvocationState) : Prop :=
  forall invocation, invocation ∈ after -> invocation.status = .running ->
    exists origin, origin ∈ before ∧ origin.scope = invocation.scope ∧ origin.status = .running

theorem runningUnder_le {before after : List InvocationState} (h : KeepsRunning before after)
    (hnodup : (after.map InvocationState.invocationKey).Nodup) (cap : ParallelConstraint) :
    runningUnder nodes after cap ≤ runningUnder nodes before cap := by
  have hkeys : ((after.filter (countsAgainst nodes cap)).map InvocationState.invocationKey).Subperm
      ((before.filter (countsAgainst nodes cap)).map InvocationState.invocationKey) := by
    apply List.subperm_of_subset ((List.filter_sublist.map _).nodup hnodup)
    intro key hkey
    rcases List.mem_map.mp hkey with ⟨invocation, hmem, rfl⟩
    rcases List.mem_filter.mp hmem with ⟨hafter, hcounts⟩
    rw [countsAgainst, Bool.and_eq_true, beq_iff_eq] at hcounts
    rcases h invocation hafter hcounts.left with ⟨origin, horigin, hscope, hrunning⟩
    have hcounted : countsAgainst nodes cap origin = true := by
      rw [countsAgainst, capsOf_of_scope hscope, hrunning, hcounts.right]
      rfl
    exact List.mem_map.mpr
      ⟨origin, List.mem_filter.mpr ⟨horigin, hcounted⟩, congrArg StepScope.key hscope⟩
  have hlength := hkeys.length_le
  rw [List.length_map, List.length_map] at hlength
  rw [runningUnder, runningUnder, List.countP_eq_length_filter, List.countP_eq_length_filter]
  exact hlength

theorem HoldsCaps.keep {before after : List InvocationState} (hcaps : HoldsCaps nodes before)
    (h : KeepsRunning before after)
    (hnodup : (after.map InvocationState.invocationKey).Nodup) : HoldsCaps nodes after where
  reads := by
    intro invocation hmem hrunning
    rcases h invocation hmem hrunning with ⟨origin, horigin, hscope, hran⟩
    rw [← parallelLimits_of_scope hscope]
    exact hcaps.reads origin horigin hran
  within := fun cap => (runningUnder_le h hnodup cap).trans (hcaps.within cap)

theorem holdsCaps_nil : HoldsCaps nodes [] where
  reads := by
    intro invocation hmem
    cases hmem
  within := fun _ => Nat.zero_le _

/-- What the admissions of a plan keep to, and what they leave out. -/
structure AdmitsUnderCaps (state : WorkflowTransition) (input : PlanInput)
    (admissions : AttemptAdmissions) : Prop where
  caps : HoldsCaps state.schedulerNodes admissions.state.invocations.items
  length : admissions.attempts.length ≤ input.maximumAdmissions
  settled : input.hasExecutionSlot = true -> state.cancelRequested = false ->
    state.deadlineExpired = false ->
    forall ready, ready ∈ state.invocations -> ready.status = .ready ->
      ready.invocationKey ∈ admissions.attempts.map AttemptAdmissionPlan.invocationKey ∨
        admissions.attempts.length = input.maximumAdmissions ∨
        exists cap, cap ∈ capsOf state.schedulerNodes ready ∧
          runningUnder state.schedulerNodes admissions.state.invocations.items cap =
            capLimit state.schedulerNodes cap
  slot : input.hasExecutionSlot = false -> admissions.attempts = []

theorem exists_of_readyKey {state : WorkflowTransition} {key : String}
    (h : key ∈ readyKeys (sortInvocations state.invocations.items)) :
    exists ready, ready ∈ state.invocations ∧ ready.invocationKey = key ∧
      ready.status = .ready := by
  rcases List.mem_map.mp h with ⟨ready, hready, rfl⟩
  rcases List.mem_filter.mp hready with ⟨hmem, hstatus⟩
  exact ⟨ready, mem_sortWith.mp hmem, rfl, eq_of_beq hstatus⟩

theorem mem_readyKeys {state : WorkflowTransition} {ready : InvocationState}
    (hmem : ready ∈ state.invocations) (hstatus : ready.status = .ready) :
    ready.invocationKey ∈ readyKeys (sortInvocations state.invocations.items) := by
  refine List.mem_map.mpr ⟨ready, List.mem_filter.mpr ⟨mem_sortWith.mpr hmem, ?_⟩, rfl⟩
  exact beq_iff_eq.mpr hstatus

theorem admitsUnderCaps {state : WorkflowTransition} {input : PlanInput} {keys : List String}
    {admissions : AttemptAdmissions}
    (hcaps : HoldsCaps state.schedulerNodes state.invocations.items)
    (hkeys : admissibleKeys state input = Except.ok keys)
    (h : admitAttempts state keys = Except.ok admissions) :
    AdmitsUnderCaps state input admissions := by
  rcases admitAttempts_counts state.schedulerNodes (AdmitsFrom.start state) h with
    ⟨hattempts, hcounts⟩
  rw [List.map_nil, List.nil_append] at hattempts
  have hlength : admissions.attempts.length = keys.length := by
    rw [← hattempts, List.length_map]
  unfold admissibleKeys at hkeys
  split at hkeys
  · next hstopped =>
    cases hkeys
    cases h
    refine ⟨hcaps, Nat.zero_le _, ?_, fun _ => rfl⟩
    intro hslot hcancel hdeadline
    rw [hslot, hcancel, hdeadline] at hstopped
    cases hstopped
  · next hrunning =>
    unfold boundedReadyAdmissions at hkeys
    rcases exists_of_bind_eq_ok hkeys with ⟨active, hactive, hkeys⟩
    rcases exists_of_bind_eq_ok hkeys with ⟨progress, hprogress, hkeys⟩
    cases hkeys
    rcases countRunning_foldlM hactive with ⟨hreads, hused⟩
    rcases admitWithinLimits_run (fun key hkey => by
      rcases exists_of_readyKey hkey with ⟨ready, hmem, hsame, _⟩
      exact ⟨ready, hmem, hsame⟩) hprogress with ⟨hrun, hadmitted⟩
    have hstart : WithinCaps (capLimit state.schedulerNodes) input.maximumAdmissions
        (AdmissionProgress.caps { active := active, admitted := [] }) := by
      constructor
      · intro cap
        show activeCount active cap ≤ _
        rw [hused cap, activeCount_empty, Nat.zero_add]
        exact hcaps.within cap
      · exact Nat.zero_le _
    have hend := hrun.within (fun key _ => nodup_keyCaps state.invocations key) hstart
    have hfinal : forall cap, progress.caps.used cap =
        runningUnder state.schedulerNodes admissions.state.invocations.items cap := by
      intro cap
      rcases hrun.exists_admitted with ⟨added, hadded, _, husedAfter⟩
      have hsame : progress.admitted = added := hadded
      rw [husedAfter cap, hcounts cap, hsame]
      show activeCount active cap + _ = _
      rw [hused cap, activeCount_empty, Nat.zero_add]
    refine ⟨⟨?_, ?_⟩, ?_, ?_, ?_⟩
    · intro invocation hmem hruns
      have hscope : invocation.scope ∈ state.scopes := by
        rw [← (admitsFrom_admitAttempts h).same.scopes]
        exact mem_scopesOf hmem
      rcases hscope with ⟨origin, horigin, hscope⟩
      by_cases hkey : origin.invocationKey ∈ progress.admitted
      · rcases hadmitted _ hkey with hnone | ⟨known, limits, hknown, hsame, hlimits⟩
        · cases hnone
        · have heq : known = origin := Keyed.eq_of_mem_of_key_eq hknown horigin hsame
          rw [← parallelLimits_of_scope hscope, ← heq]
          exact ⟨limits, hlimits⟩
      · rw [← hattempts] at hkey
        have hkept := (admitsFrom_admitAttempts h).kept origin horigin hkey
        have heq : origin = invocation :=
          Keyed.eq_of_mem_of_key_eq hkept hmem (congrArg StepScope.key hscope)
        rw [← heq]
        exact hreads origin horigin (heq ▸ hruns)
    · intro cap
      rw [← hfinal cap]
      exact hend.caps cap
    · rw [hlength]
      exact hend.length
    · intro _ _ _ ready hmem hstatus
      rcases hrun.settled _ (mem_readyKeys hmem hstatus) with hin | hmaximum | ⟨cap, hcap, hfull⟩
      · rw [hattempts]
        exact Or.inl hin
      · apply Or.inr
        apply Or.inl
        rw [hlength]
        exact Nat.le_antisymm hend.length hmaximum
      · rw [keyCaps_of_mem hmem] at hcap
        refine Or.inr (Or.inr ⟨cap, hcap, ?_⟩)
        rw [← hfinal cap]
        exact Nat.le_antisymm (hend.caps cap) hfull
    · intro hslot
      rw [hslot] at hrunning
      simp at hrunning

end

/-!
## Stopped runs

A requested stop leaves no invocation ready: the control of an active loop,
which it spares, is not ready in a checkpoint.
-/

theorem stopUnprotected_ready {protectedControls : List String} {occurredAt : Timestamp}
    {state after : WorkflowTransition} {invocation : InvocationState}
    (hstop : (state.cancelRequested || state.deadlineExpired) = true)
    (h : stopUnprotected protectedControls occurredAt state invocation = Except.ok after) :
    (after = state ∧
        (invocation.status = .ready -> invocation.invocationKey ∈ protectedControls)) ∨
      exists stopped, after.invocations = state.invocations.set stopped ∧
        stopped.invocationKey = invocation.invocationKey ∧ stopped.status ≠ .ready ∧
        after.cancelRequested = state.cancelRequested ∧
        after.deadlineExpired = state.deadlineExpired := by
  unfold stopUnprotected at h
  split at h
  · unfold stopInvocation at h
    cases hrequested : requestedStopStatus state invocation.status with
    | none =>
        unfold requestedStopStatus at hrequested
        cases hcancel : state.cancelRequested with
        | true =>
            rw [hcancel] at hrequested
            cases hrequested
        | false =>
            rw [hcancel, Bool.false_or] at hstop
            rw [hcancel, hstop] at hrequested
            simp at hrequested
            split at hrequested
            · cases hrequested
            · cases hrequested
    | some status =>
        rw [hrequested] at h
        dsimp only at h
        rcases exists_of_bind_eq_ok h with ⟨_, _, h⟩
        cases h
        refine Or.inr ⟨invocation.withStatus status, rfl, rfl, ?_, rfl, rfl⟩
        unfold requestedStopStatus at hrequested
        intro hready
        have hstatus : status = .ready := hready
        rw [hstatus] at hrequested
        split at hrequested
        · cases hrequested
        · split at hrequested
          · cases hrequested
          · split at hrequested
            · cases hrequested
            · cases hrequested
  · next hspared =>
    cases h
    refine Or.inl ⟨rfl, ?_⟩
    intro hready
    rw [hready] at hspared
    simpa [isStoppableStatus] using hspared

theorem stopUnprotected_foldlM {protectedControls : List String} {occurredAt : Timestamp}
    {items : List InvocationState} {state after : WorkflowTransition}
    (hstop : (state.cancelRequested || state.deadlineExpired) = true)
    (hitems : forall item, item ∈ items -> item ∈ state.invocations)
    (hnodup : (items.map InvocationState.invocationKey).Nodup)
    (h : items.foldlM (stopUnprotected protectedControls occurredAt) state = Except.ok after) :
    forall invocation, invocation ∈ after.invocations -> invocation.status = .ready ->
      invocation.invocationKey ∈ protectedControls ∨
        (invocation ∈ state.invocations ∧
          invocation.invocationKey ∉ items.map InvocationState.invocationKey) := by
  induction items generalizing state with
  | nil =>
      cases h
      exact fun invocation hmem _ => Or.inr ⟨hmem, List.not_mem_nil⟩
  | cons item rest ih =>
      rw [List.foldlM_cons] at h
      rcases exists_of_bind_eq_ok h with ⟨middle, hstep, hrest⟩
      rw [List.map_cons, List.nodup_cons] at hnodup
      have hitem := hitems item (List.mem_cons_self ..)
      rcases stopUnprotected_ready hstop hstep with
        ⟨rfl, hspared⟩ | ⟨stopped, hset, hkey, hstatus, hcancel, hdeadline⟩
      · intro invocation hmem hready
        rcases ih hstop (fun other hother => hitems other (List.mem_cons_of_mem _ hother))
          hnodup.right hrest invocation hmem hready with hprotected | ⟨hold, hother⟩
        · exact Or.inl hprotected
        · by_cases hsame : invocation.invocationKey = item.invocationKey
          · have heq : invocation = item := Keyed.eq_of_mem_of_key_eq hold hitem hsame
            exact Or.inl (heq ▸ hspared (heq ▸ hready))
          · refine Or.inr ⟨hold, ?_⟩
            rw [List.map_cons, List.mem_cons, not_or]
            exact ⟨hsame, hother⟩
      · have hmiddle : forall other, other ∈ rest -> other ∈ middle.invocations := by
          intro other hother
          rw [hset]
          refine Keyed.mem_set.mpr
            (Or.inr ⟨hitems other (List.mem_cons_of_mem _ hother), ?_⟩)
          intro hsame
          apply hnodup.left
          have hsame' : other.invocationKey = stopped.invocationKey := hsame
          rw [← hkey, ← hsame']
          exact List.mem_map_of_mem hother
        intro invocation hmem hready
        rcases ih (by rw [hcancel, hdeadline]; exact hstop) hmiddle hnodup.right hrest invocation
          hmem hready with hprotected | ⟨hold, hother⟩
        · exact Or.inl hprotected
        · rw [hset] at hold
          rcases Keyed.mem_set.mp hold with rfl | ⟨hbefore, hne⟩
          · exact absurd hready hstatus
          · refine Or.inr ⟨hbefore, ?_⟩
            rw [List.map_cons, List.mem_cons, not_or]
            have hne' : invocation.invocationKey ≠ stopped.invocationKey := hne
            exact ⟨hkey ▸ hne', hother⟩

theorem flags_stopUnprotected {protectedControls : List String} {occurredAt : Timestamp}
    {state after : WorkflowTransition} {invocation : InvocationState}
    (h : stopUnprotected protectedControls occurredAt state invocation = Except.ok after) :
    (after.cancelRequested || after.deadlineExpired) =
      (state.cancelRequested || state.deadlineExpired) ∧ after.loops = state.loops := by
  refine ⟨?_, loops_stopUnprotected h⟩
  unfold stopUnprotected at h
  split at h
  · unfold stopInvocation at h
    split at h
    · cases h
      rfl
    · rcases exists_of_bind_eq_ok h with ⟨_, _, h⟩
      cases h
      rfl
  · cases h
    rfl

/-- What is ready after a requested stop controls a loop with an active iteration. -/
theorem controls_of_ready {state after : WorkflowTransition} {occurredAt : Timestamp}
    (hstop : (after.cancelRequested || after.deadlineExpired) = true)
    (h : applyWorkflowStops state occurredAt = Except.ok after) {invocation : InvocationState}
    (hmem : invocation ∈ after.invocations) (hready : invocation.status = .ready) :
    exists loop, loop ∈ after.loops ∧
      loop.controlInvocationKey = invocation.invocationKey := by
  unfold applyWorkflowStops at h
  rcases exists_of_bind_eq_ok h with ⟨stopped, _, h⟩
  have hflags : (after.cancelRequested || after.deadlineExpired) =
      (stopped.cancelRequested || stopped.deadlineExpired) ∧ after.loops = stopped.loops := by
    apply foldlM_relation
      (fun before after : WorkflowTransition =>
        (after.cancelRequested || after.deadlineExpired) =
          (before.cancelRequested || before.deadlineExpired) ∧ after.loops = before.loops)
      (fun _ => ⟨rfl, rfl⟩)
      (fun _ _ _ hfirst hsecond =>
        ⟨hsecond.left.trans hfirst.left, hsecond.right.trans hfirst.right⟩) _ h
    exact fun _ _ _ _ => flags_stopUnprotected
  rw [hflags.left] at hstop
  rcases stopUnprotected_foldlM hstop (fun _ hitem => hitem) stopped.invocations.nodup h
    invocation hmem hready with hprotected | ⟨hold, hother⟩
  · rcases List.mem_map.mp hprotected with ⟨loop, hloop, hkey⟩
    refine ⟨loop, ?_, hkey⟩
    rw [hflags.right]
    exact (List.mem_filter.mp hloop).left
  · exact absurd (List.mem_map_of_mem hold) hother

theorem not_ready_of_consistent {loop : LoopState} {parent : InvocationState}
    {cancelRequested deadlineExpired : Bool}
    (hstatus : forall status, loop.terminalStatus = some status ->
      isLoopTerminalStatus status = true)
    (h : loopParentStatusIsConsistent loop parent cancelRequested deadlineExpired = true) :
    parent.status ≠ .ready := by
  intro hready
  unfold loopParentStatusIsConsistent at h
  rw [hready] at h
  split at h
  · next status hterminal =>
    have hloop := hstatus status hterminal
    rw [← eq_of_beq h] at hloop
    cases hloop
  · simp at h

end Engine
end Pertexo
