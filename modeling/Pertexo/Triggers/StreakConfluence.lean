import Pertexo.Triggers.StreakFolding

/-!
# Streaks over whole runs

## What one fold does
-/

namespace Pertexo
namespace Triggers

open Library

section

variable {Time Uuid : Type} [LinearOrder Time] [LinearOrder Uuid]

def streakOf (db : PauseDatabase Time Uuid) : FailureStreak Time Uuid :=
  db.streak.getD newStreak

def eligibleOf (db : PauseDatabase Time Uuid) (batch : List (TriggerOutcome Time Uuid)) :
    List (TriggerOutcome Time Uuid) :=
  batch.filter (isAfterResume (streakOf db).resumedAfter)

/-- The watermark of a fold, moved also by a success that is not consumed yet. -/
def foldedSuccess (db : PauseDatabase Time Uuid) (batch : List (TriggerOutcome Time Uuid)) :
    Option (CompletionPosition Time Uuid) :=
  advanceSuccessWatermark (streakOf db).success
    (eligibleOf db batch ++
      (readPendingSuccess (takeBatch db batch).outcomes (streakOf db).resumedAfter).toList)

structure FoldsEligible (db : PauseDatabase Time Uuid) (batch : List (TriggerOutcome Time Uuid))
    (folded : PauseDatabase Time Uuid) : Prop where
  outcomes_eq : folded.outcomes = (takeBatch db batch).outcomes
  failures_eq : folded.failures =
    storedFailures (streakOf db).resumedAfter (foldedSuccess db batch) db.failures
      (eligibleOf db batch)
  resumedAfter_eq : (streakOf folded).resumedAfter = (streakOf db).resumedAfter
  success_eq : (streakOf folded).success = foldedSuccess db batch
  legacy_eq : (streakOf folded).legacyFailures =
    if (foldedSuccess db batch).isNone then (streakOf db).legacyFailures else 0
  consecutive_eq : (streakOf folded).consecutiveFailures =
    streakLength (streakOf folded).legacyFailures
      (orderedFailures (streakOf db).resumedAfter (foldedSuccess db batch) db.failures
        (eligibleOf db batch)).length

theorem foldsEligible_applyOrderedOutcomes (db : PauseDatabase Time Uuid)
    (batch : List (TriggerOutcome Time Uuid)) (threshold : Nat) :
    FoldsEligible db batch
      (applyOrderedOutcomes (takeBatch db batch) (streakOf db) (eligibleOf db batch) threshold
        (readPendingSuccess (takeBatch db batch).outcomes (streakOf db).resumedAfter)).fst :=
  { outcomes_eq := rfl
    failures_eq := rfl
    resumedAfter_eq := rfl
    success_eq := rfl
    legacy_eq := rfl
    consecutive_eq := rfl }

/-- A fold does nothing, or takes a batch that came before the resume, or folds one in. -/
theorem foldWorkflow_cases (db : PauseDatabase Time Uuid) (candidateIds : List Uuid)
    (locked : Uuid -> Bool) (now : Time) :
    foldWorkflow db candidateIds locked now = (db, none) ∨
      (eligibleOf db (batchOf db candidateIds locked) = [] ∧
        foldWorkflow db candidateIds locked now =
          (takeBatch db (batchOf db candidateIds locked), none)) ∨
      (eligibleOf db (batchOf db candidateIds locked) ≠ [] ∧
        FoldsEligible db (batchOf db candidateIds locked)
          (foldWorkflow db candidateIds locked now).fst) := by
  cases hworkspace : db.workspace with
  | none => exact Or.inl (by simp only [foldWorkflow, hworkspace])
  | some workspace =>
  cases hworkflow : db.workflow with
  | none => exact Or.inl (by simp only [foldWorkflow, hworkspace, hworkflow])
  | some workflow =>
  cases hbatch : (batchOf db candidateIds locked).isEmpty with
  | true => exact Or.inl (by simp only [foldWorkflow, hworkspace, hworkflow, hbatch, if_true])
  | false =>
  have hfold := foldWorkflow.eq_def db candidateIds locked now
  simp only [hworkspace, hworkflow, hbatch, Bool.false_eq_true, if_false] at hfold
  right
  cases heligible : (eligibleOf db (batchOf db candidateIds locked)).isEmpty with
  | true =>
      left
      exact ⟨List.isEmpty_iff.mp heligible, hfold.trans (if_pos heligible)⟩
  | false =>
      right
      constructor
      · intro hnil
        rw [hnil] at heligible
        exact Bool.noConfusion heligible
      · have happlied := foldsEligible_applyOrderedOutcomes db (batchOf db candidateIds locked)
          (workflow.autoPauseThreshold.getD workspace.autoPauseThreshold)
        rw [hfold.trans (if_neg (ne_true_of_eq_false heligible))]
        split
        · exact happlied
        · split
          -- Pausing writes the workflow and the audit, not the streak.
          · exact
              { outcomes_eq := happlied.outcomes_eq
                failures_eq := happlied.failures_eq
                resumedAfter_eq := happlied.resumedAfter_eq
                success_eq := happlied.success_eq
                legacy_eq := happlied.legacy_eq
                consecutive_eq := happlied.consecutive_eq }
          · exact happlied

theorem batchOf_subset {db : PauseDatabase Time Uuid} {candidateIds : List Uuid}
    {locked : Uuid -> Bool} : batchOf db candidateIds locked ⊆ db.outcomes :=
  fun _ hmem => List.mem_of_mem_filter ((perm_sortCompletions _).mem_iff.mp hmem)

theorem nodup_batchOf {db : PauseDatabase Time Uuid} {candidateIds : List Uuid}
    {locked : Uuid -> Bool} (h : db.outcomes.Nodup) : (batchOf db candidateIds locked).Nodup :=
  (perm_sortCompletions _).nodup_iff.mpr (h.filter _)

omit [LinearOrder Time] in
theorem mem_takeBatch_iff {db : PauseDatabase Time Uuid}
    {batch : List (TriggerOutcome Time Uuid)} {outcome : TriggerOutcome Time Uuid}
    (hseparated : Separated db.outcomes) (hbatch : batch ⊆ db.outcomes) :
    outcome ∈ (takeBatch db batch).outcomes ↔ outcome ∈ db.outcomes ∧ outcome ∉ batch := by
  simp only [takeBatch, List.mem_filter, Bool.not_eq_true', List.any_eq_false, beq_iff_eq]
  constructor
  · exact fun h => ⟨h.left, fun hmem => h.right outcome hmem rfl⟩
  · intro h
    constructor
    · exact h.left
    · intro taken htaken hid
      have heq := hseparated taken (hbatch htaken) outcome h.left (Or.inl hid)
      exact h.right (heq ▸ htaken)

/-- No pending success is later than the one that a fold reads. -/
theorem key_le_of_readPendingSuccess {outcomes : List (TriggerOutcome Time Uuid)}
    {resumedAfter : Option Time} {success : TriggerOutcome Time Uuid}
    (hseparated : Separated outcomes) (hnodup : outcomes.Nodup) (hmem : success ∈ outcomes)
    (hcounts : success.countsAsFailure = false)
    (hresumed : isAfterResume resumedAfter success = true) :
    exists latest, readPendingSuccess outcomes resumedAfter = some latest ∧
      latest.countsAsFailure = false ∧ success.key ≤ latest.key := by
  have hsorted := pairwise_sortCompletions
    (hseparated.subset fun _ hmem => List.mem_of_mem_filter hmem)
    (hnodup.filter fun outcome => !outcome.countsAsFailure && isAfterResume resumedAfter outcome)
  have hperm := perm_sortCompletions (outcomes.filter fun outcome =>
    !outcome.countsAsFailure && isAfterResume resumedAfter outcome)
  have hcandidate := hperm.mem_iff.mpr (List.mem_filter.mpr
    ⟨hmem, by rw [hcounts, hresumed]; rfl⟩)
  rw [readPendingSuccess, List.head?_reverse]
  cases hlast : (sortCompletions (outcomes.filter fun outcome =>
      !outcome.countsAsFailure && isAfterResume resumedAfter outcome)).getLast? with
  | none =>
      rw [List.getLast?_eq_none_iff.mp hlast] at hcandidate
      exact absurd hcandidate List.not_mem_nil
  | some latest =>
      rcases List.getLast?_eq_some_iff.mp hlast with ⟨earlier, hsplit⟩
      rw [hsplit] at hperm hsorted hcandidate
      have hlatest := List.mem_filter.mp (hperm.mem_iff.mp
        (List.mem_append_right _ (List.mem_singleton_self latest)))
      have hboth := Bool.and_eq_true_iff.mp hlatest.right
      refine ⟨latest, rfl, ?_, ?_⟩
      · simpa using hboth.left
      · cases List.mem_append.mp hcandidate with
        | inl hearlier =>
            have hbefore := (List.pairwise_append.mp hsorted).right.right
            exact (hbefore success hearlier latest (List.mem_singleton_self latest)).le
        | inr hsame => rw [List.mem_singleton.mp hsame]

theorem readPendingSuccess_mem {outcomes : List (TriggerOutcome Time Uuid)}
    {resumedAfter : Option Time} {latest : TriggerOutcome Time Uuid}
    (h : readPendingSuccess outcomes resumedAfter = some latest) :
    latest ∈ outcomes ∧ isAfterResume resumedAfter latest = true := by
  have hmem := List.mem_reverse.mp (List.mem_of_mem_head? h)
  have hfilter := List.mem_filter.mp ((perm_sortCompletions _).mem_iff.mp hmem)
  exact ⟨hfilter.left, (Bool.and_eq_true_iff.mp hfilter.right).right⟩

/-!
## Runs of folds

Outcomes arrive, folds take batches of them in any order, and the rows of the
workspace and the workflow change, one event at a time.
-/

inductive StreakEvent (Time Uuid : Type) where
  | arrive (outcome : TriggerOutcome Time Uuid)
  | fold (candidateIds : List Uuid) (locked : Uuid -> Bool) (now : Time)
  | administer (workspace : Option PauseWorkspace) (workflow : Option (PauseWorkflow Time Uuid))

def applyEvent (db : PauseDatabase Time Uuid) : StreakEvent Time Uuid -> PauseDatabase Time Uuid
  | .arrive outcome => { db with outcomes := db.outcomes ++ [outcome] }
  | .fold candidateIds locked now => (foldWorkflow db candidateIds locked now).fst
  | .administer workspace workflow => { db with workspace, workflow }

def StreakRun (start : PauseDatabase Time Uuid) :
    List (StreakEvent Time Uuid) -> PauseDatabase Time Uuid -> Prop :=
  Run (fun db => db = start) fun before event after => after = applyEvent before event

def arrivals (events : List (StreakEvent Time Uuid)) : List (TriggerOutcome Time Uuid) :=
  events.filterMap fun event =>
    match event with
    | .arrive outcome => some outcome
    | _ => none

def seen (start : PauseDatabase Time Uuid) (events : List (StreakEvent Time Uuid)) :
    List (TriggerOutcome Time Uuid) :=
  start.outcomes ++ arrivals events

def consumed (all : List (TriggerOutcome Time Uuid)) (db : PauseDatabase Time Uuid) :
    List (TriggerOutcome Time Uuid) :=
  all.filter fun outcome => !decide (outcome ∈ db.outcomes)

def foldedPool (start : PauseDatabase Time Uuid) (outcomes : List (TriggerOutcome Time Uuid)) :
    Finset (TriggerOutcome Time Uuid) :=
  start.failures.toFinset ∪ (failuresOf outcomes).toFinset

structure RowsOf (start : PauseDatabase Time Uuid) (all : List (TriggerOutcome Time Uuid))
    (db : PauseDatabase Time Uuid) : Prop where
  pending_nodup : db.outcomes.Nodup
  pending_subset : db.outcomes ⊆ all
  failures_nodup : db.failures.Nodup
  failures_subset : db.failures ⊆ start.failures ++ all
  failures_consumed : forall failure, failure ∈ db.failures -> failure ∉ db.outcomes
  resumedAfter_eq : (streakOf db).resumedAfter = (streakOf start).resumedAfter

/-- The watermark is a success of the run and not before any that was consumed. -/
structure WatermarkOf (start : PauseDatabase Time Uuid) (all : List (TriggerOutcome Time Uuid))
    (db : PauseDatabase Time Uuid) : Prop where
  prior_le : level (streakOf start).success ≤ level (streakOf db).success
  consumed_le : forall outcome, outcome ∈ consumed all db ->
    isAfterResume (streakOf start).resumedAfter outcome = true ->
    outcome.countsAsFailure = false ->
    (outcome.key : WithBot (Time ×ₗ Uuid)) ≤ level (streakOf db).success
  attained : (streakOf db).success = (streakOf start).success ∨
    exists outcome, outcome ∈ all ∧
      isAfterResume (streakOf start).resumedAfter outcome = true ∧
      outcome.countsAsFailure = false ∧ (streakOf db).success = some outcome.position

structure Untouched (start db : PauseDatabase Time Uuid) : Prop where
  success_eq : (streakOf db).success = (streakOf start).success
  legacy_eq : (streakOf db).legacyFailures = (streakOf start).legacyFailures
  consecutive_eq : (streakOf db).consecutiveFailures = (streakOf start).consecutiveFailures
  failures_eq : db.failures = start.failures

structure FoldedFrom (start : PauseDatabase Time Uuid)
    (outcomes : List (TriggerOutcome Time Uuid)) (db : PauseDatabase Time Uuid) : Prop where
  legacy_eq : (streakOf db).legacyFailures =
    if (streakOf db).success.isNone then (streakOf start).legacyFailures else 0
  consecutive_eq : (streakOf db).consecutiveFailures =
    streakLength (streakOf db).legacyFailures db.failures.length
  failures_eq : db.failures.toFinset =
    latestCounted (streakOf start).resumedAfter (streakOf db).success (foldedPool start outcomes)

def Eligible (start : PauseDatabase Time Uuid) (outcomes : List (TriggerOutcome Time Uuid)) :
    Prop :=
  exists outcome, outcome ∈ outcomes ∧
    isAfterResume (streakOf start).resumedAfter outcome = true

structure StreakInvariant (start : PauseDatabase Time Uuid)
    (all : List (TriggerOutcome Time Uuid)) (db : PauseDatabase Time Uuid) : Prop where
  rows : RowsOf start all db
  watermark : WatermarkOf start all db
  untouched : ¬ Eligible start (consumed all db) -> Untouched start db
  folded : Eligible start (consumed all db) -> FoldedFrom start (consumed all db) db

theorem streakInvariant_start (start : PauseDatabase Time Uuid)
    (hnodup : (start.failures ++ start.outcomes).Nodup) :
    StreakInvariant start start.outcomes start := by
  rcases List.nodup_append.mp hnodup with ⟨hfailures, houtcomes, hdisjoint⟩
  have hnone : forall outcome, outcome ∉ consumed start.outcomes start := by
    intro outcome hmem
    have hfilter := List.mem_filter.mp hmem
    simp [hfilter.left] at hfilter
  constructor
  · exact
      { pending_nodup := houtcomes
        pending_subset := fun _ hmem => hmem
        failures_nodup := hfailures
        failures_subset := fun _ hmem => List.mem_append_left _ hmem
        failures_consumed := fun failure hfailure hpending =>
          hdisjoint failure hfailure failure hpending rfl
        resumedAfter_eq := rfl }
  · exact
      { prior_le := le_rfl
        consumed_le := fun outcome hmem => absurd hmem (hnone outcome)
        attained := Or.inl rfl }
  · exact fun _ =>
      { success_eq := rfl
        legacy_eq := rfl
        consecutive_eq := rfl
        failures_eq := rfl }
  · intro heligible
    rcases heligible with ⟨outcome, hmem, _⟩
    exact absurd hmem (hnone outcome)

theorem StreakInvariant.of_rows_eq {start db db' : PauseDatabase Time Uuid}
    {all : List (TriggerOutcome Time Uuid)} (h : StreakInvariant start all db)
    (houtcomes : db'.outcomes = db.outcomes) (hstreak : streakOf db' = streakOf db)
    (hfailures : db'.failures = db.failures) : StreakInvariant start all db' := by
  have hconsumed : consumed all db' = consumed all db := by
    rw [consumed, consumed, houtcomes]
  constructor
  · constructor
    · exact houtcomes ▸ h.rows.pending_nodup
    · exact houtcomes ▸ h.rows.pending_subset
    · exact hfailures ▸ h.rows.failures_nodup
    · exact hfailures ▸ h.rows.failures_subset
    · exact hfailures ▸ houtcomes ▸ h.rows.failures_consumed
    · exact hstreak ▸ h.rows.resumedAfter_eq
  · constructor
    · exact hstreak ▸ h.watermark.prior_le
    · exact hstreak ▸ hconsumed ▸ h.watermark.consumed_le
    · exact hstreak ▸ h.watermark.attained
  · intro hnone
    have huntouched := h.untouched (hconsumed ▸ hnone)
    constructor
    · exact hstreak ▸ huntouched.success_eq
    · exact hstreak ▸ huntouched.legacy_eq
    · exact hstreak ▸ huntouched.consecutive_eq
    · exact hfailures ▸ huntouched.failures_eq
  · intro heligible
    have hfolded := h.folded (hconsumed ▸ heligible)
    constructor
    · exact hstreak ▸ hfolded.legacy_eq
    · exact hstreak ▸ hfailures ▸ hfolded.consecutive_eq
    · exact hstreak ▸ hfailures ▸ hconsumed ▸ hfolded.failures_eq

theorem StreakInvariant.arrive {start db : PauseDatabase Time Uuid}
    {all : List (TriggerOutcome Time Uuid)} {outcome : TriggerOutcome Time Uuid}
    (h : StreakInvariant start all db) (hnodup : (start.failures ++ (all ++ [outcome])).Nodup) :
    StreakInvariant start (all ++ [outcome]) (applyEvent db (.arrive outcome)) := by
  rw [← List.append_assoc] at hnodup
  have hnew : outcome ∉ start.failures ++ all := fun hmem =>
    (List.nodup_append.mp hnodup).right.right outcome hmem outcome
      (List.mem_singleton_self outcome) rfl
  have hnewAll : outcome ∉ all := fun hmem => hnew (List.mem_append_right _ hmem)
  have hconsumed : consumed (all ++ [outcome]) (applyEvent db (.arrive outcome)) =
      consumed all db := by
    have hlast : (!decide (outcome ∈ db.outcomes ++ [outcome])) = false := by simp
    change (all ++ [outcome]).filter (fun other => !decide (other ∈ db.outcomes ++ [outcome])) = _
    rw [List.filter_append, List.filter_cons, hlast, if_neg Bool.false_ne_true, List.filter_nil,
      List.append_nil, consumed]
    apply List.filter_congr
    intro other hother
    have hne : other ≠ outcome := fun heq => hnewAll (heq ▸ hother)
    simp [hne]
  constructor
  · constructor
    · apply List.nodup_append.mpr
      refine ⟨h.rows.pending_nodup, List.nodup_singleton _, ?_⟩
      intro other hother new hmem heq
      rw [List.mem_singleton.mp hmem] at heq
      exact hnewAll (h.rows.pending_subset (heq ▸ hother))
    · exact List.append_subset.mpr
        ⟨fun _ hmem => List.mem_append_left _ (h.rows.pending_subset hmem),
          List.subset_append_right _ _⟩
    · exact h.rows.failures_nodup
    · intro failure hmem
      rw [← List.append_assoc]
      exact List.mem_append_left _ (h.rows.failures_subset hmem)
    · intro failure hmem hpending
      cases List.mem_append.mp hpending with
      | inl hpending => exact h.rows.failures_consumed failure hmem hpending
      | inr hsame =>
          apply hnew
          rw [← List.mem_singleton.mp hsame]
          exact h.rows.failures_subset hmem
    · exact h.rows.resumedAfter_eq
  · constructor
    · exact h.watermark.prior_le
    · rw [hconsumed]
      exact h.watermark.consumed_le
    · cases h.watermark.attained with
      | inl hsame => exact Or.inl hsame
      | inr hsuccess =>
          rcases hsuccess with ⟨success, hmem, hrest⟩
          exact Or.inr ⟨success, List.mem_append_left _ hmem, hrest⟩
  · rw [hconsumed]
    intro hnone
    have huntouched := h.untouched hnone
    exact
      { success_eq := huntouched.success_eq
        legacy_eq := huntouched.legacy_eq
        consecutive_eq := huntouched.consecutive_eq
        failures_eq := huntouched.failures_eq }
  · rw [hconsumed]
    intro heligible
    have hfolded := h.folded heligible
    exact
      { legacy_eq := hfolded.legacy_eq
        consecutive_eq := hfolded.consecutive_eq
        failures_eq := hfolded.failures_eq }

/-!
## Taking a batch
-/

theorem mem_consumed {all : List (TriggerOutcome Time Uuid)} {db : PauseDatabase Time Uuid}
    {outcome : TriggerOutcome Time Uuid} :
    outcome ∈ consumed all db ↔ outcome ∈ all ∧ outcome ∉ db.outcomes := by
  simp [consumed]

theorem mem_foldedPool {start : PauseDatabase Time Uuid}
    {outcomes : List (TriggerOutcome Time Uuid)} {outcome : TriggerOutcome Time Uuid} :
    outcome ∈ foldedPool start outcomes ↔
      outcome ∈ start.failures ∨ outcome ∈ outcomes ∧ outcome.countsAsFailure = true := by
  simp [foldedPool, failuresOf]

structure TakesBatch (start : PauseDatabase Time Uuid) (all : List (TriggerOutcome Time Uuid))
    (db : PauseDatabase Time Uuid) (batch : List (TriggerOutcome Time Uuid)) : Prop where
  rows : RowsOf start all db
  separated : Separated (start.failures ++ all)
  batch_nodup : batch.Nodup
  batch_subset : batch ⊆ db.outcomes

section

variable {start db folded : PauseDatabase Time Uuid}
variable {all batch : List (TriggerOutcome Time Uuid)}

omit [LinearOrder Time] [LinearOrder Uuid] in
theorem TakesBatch.separated_outcomes (h : TakesBatch start all db batch) :
    Separated db.outcomes :=
  h.separated.subset fun _ hmem => List.mem_append_right _ (h.rows.pending_subset hmem)

theorem TakesBatch.mem_consumed (h : TakesBatch start all db batch)
    (houtcomes : folded.outcomes = (takeBatch db batch).outcomes)
    (outcome : TriggerOutcome Time Uuid) :
    outcome ∈ consumed all folded ↔ outcome ∈ consumed all db ∨ outcome ∈ batch := by
  rw [Triggers.mem_consumed, Triggers.mem_consumed, houtcomes,
    mem_takeBatch_iff h.separated_outcomes h.batch_subset, not_and_not_right]
  constructor
  · intro hmem
    by_cases hpending : outcome ∈ db.outcomes
    · exact Or.inr (hmem.right hpending)
    · exact Or.inl ⟨hmem.left, hpending⟩
  · intro hmem
    cases hmem with
    | inl hold => exact ⟨hold.left, fun hpending => absurd hpending hold.right⟩
    | inr hnew => exact ⟨h.rows.pending_subset (h.batch_subset hnew), fun _ => hnew⟩

omit [LinearOrder Time] in
theorem TakesBatch.rowsOf (h : TakesBatch start all db batch)
    (houtcomes : folded.outcomes = (takeBatch db batch).outcomes)
    (hresumed : (streakOf folded).resumedAfter = (streakOf db).resumedAfter)
    (hnodup : folded.failures.Nodup)
    (hfailures : forall failure, failure ∈ folded.failures ->
      failure ∈ db.failures ∨ failure ∈ batch) : RowsOf start all folded := by
  have hpending : forall outcome, outcome ∈ folded.outcomes ↔
      outcome ∈ db.outcomes ∧ outcome ∉ batch := by
    intro outcome
    rw [houtcomes]
    exact mem_takeBatch_iff h.separated_outcomes h.batch_subset
  constructor
  · rw [houtcomes]
    exact h.rows.pending_nodup.filter _
  · exact fun outcome hmem => h.rows.pending_subset ((hpending outcome).mp hmem).left
  · exact hnodup
  · intro failure hmem
    cases hfailures failure hmem with
    | inl hold => exact h.rows.failures_subset hold
    | inr hnew =>
        exact List.mem_append_right _ (h.rows.pending_subset (h.batch_subset hnew))
  · intro failure hmem hstill
    have hstill := (hpending failure).mp hstill
    cases hfailures failure hmem with
    | inl hold => exact h.rows.failures_consumed failure hold hstill.left
    | inr hnew => exact hstill.right hnew
  · exact hresumed.trans h.rows.resumedAfter_eq

omit [LinearOrder Uuid] in
theorem TakesBatch.foldable (h : TakesBatch start all db batch) :
    Foldable db.failures (eligibleOf db batch) (streakOf db).resumedAfter := by
  have heligible : eligibleOf db batch ⊆ db.outcomes := fun _ hmem =>
    h.batch_subset (List.mem_of_mem_filter hmem)
  constructor
  · apply h.separated.subset
    apply List.append_subset.mpr
    constructor
    · exact h.rows.failures_subset
    · exact fun _ hmem => List.mem_append_right _ (h.rows.pending_subset (heligible hmem))
  · apply List.nodup_append.mpr
    refine ⟨h.rows.failures_nodup, h.batch_nodup.filter _, ?_⟩
    intro failure hfailure outcome hmem heq
    exact h.rows.failures_consumed failure hfailure (heq ▸ heligible hmem)
  · exact fun _ hmem => (List.mem_filter.mp hmem).right

/-- Of the failures of a batch only the eligible ones may count. -/
theorem TakesBatch.filter_foldedPool (h : TakesBatch start all db batch)
    (houtcomes : folded.outcomes = (takeBatch db batch).outcomes)
    (success : Option (CompletionPosition Time Uuid)) :
    (foldedPool start (consumed all folded)).filter
        (Counts (streakOf start).resumedAfter success) =
      (foldedPool start (consumed all db) ∪ (failuresOf (eligibleOf db batch)).toFinset).filter
        (Counts (streakOf start).resumedAfter success) := by
  ext outcome
  rw [Finset.mem_filter, Finset.mem_filter, Finset.mem_union, mem_foldedPool, mem_foldedPool,
    h.mem_consumed houtcomes outcome, List.mem_toFinset]
  simp only [failuresOf, eligibleOf, List.mem_filter]
  constructor
  · intro hmem
    constructor
    · rcases hmem.left with hstart | ⟨hold | hnew, hcounts⟩
      · exact Or.inl (Or.inl hstart)
      · exact Or.inl (Or.inr ⟨hold, hcounts⟩)
      · have hresumed := (counts_iff.mp hmem.right).left
        exact Or.inr ⟨⟨hnew, h.rows.resumedAfter_eq ▸ hresumed⟩, hcounts⟩
    · exact hmem.right
  · intro hmem
    constructor
    · rcases hmem.left with (hstart | hold) | hnew
      · exact Or.inl hstart
      · exact Or.inr ⟨Or.inl hold.left, hold.right⟩
      · exact Or.inr ⟨Or.inr hnew.left.left, hnew.right⟩
    · exact hmem.right

end

end

end Triggers
end Pertexo
