import Pertexo.Triggers.StreakConfluence

/-!
# Streaks do not depend on the order of folding

## Folds keep the invariant
-/

namespace Pertexo
namespace Triggers

open Library

section

variable {Time Uuid : Type} [LinearOrder Time] [LinearOrder Uuid]
variable {start db folded : PauseDatabase Time Uuid}
variable {all batch : List (TriggerOutcome Time Uuid)}

theorem latestCounted_congr {resumedAfter : Option Time}
    {success : Option (CompletionPosition Time Uuid)}
    {pool pool' : Finset (TriggerOutcome Time Uuid)}
    (h : pool.filter (Counts resumedAfter success) = pool'.filter (Counts resumedAfter success)) :
    latestCounted resumedAfter success pool = latestCounted resumedAfter success pool' := by
  rw [latestCounted, latestCounted, h]

/-- The retained failures stand for all that were folded, now and for later watermarks. -/
theorem StreakInvariant.latestCounted_eq (h : StreakInvariant start all db)
    {later : Option (CompletionPosition Time Uuid)}
    (hle : level (streakOf db).success ≤ level later)
    (added : Finset (TriggerOutcome Time Uuid)) :
    latestCounted (streakOf start).resumedAfter later (db.failures.toFinset ∪ added) =
      latestCounted (streakOf start).resumedAfter later
        (foldedPool start (consumed all db) ∪ added) := by
  by_cases heligible : Eligible start (consumed all db)
  · rw [(h.folded heligible).failures_eq, latestCounted_latestCounted hle]
  · rw [(h.untouched heligible).failures_eq]
    apply latestCounted_congr
    ext outcome
    rw [Finset.mem_filter, Finset.mem_filter, Finset.mem_union, Finset.mem_union,
      List.mem_toFinset, mem_foldedPool]
    constructor
    · intro hmem
      constructor
      · cases hmem.left with
        | inl hstart => exact Or.inl (Or.inl hstart)
        | inr hadded => exact Or.inr hadded
      · exact hmem.right
    · intro hmem
      constructor
      · rcases hmem.left with (hstart | hconsumed) | hadded
        · exact Or.inl hstart
        · exact absurd ⟨outcome, hconsumed.left, (counts_iff.mp hmem.right).left⟩ heligible
        · exact Or.inr hadded
      · exact hmem.right

theorem StreakInvariant.takeBatch (h : StreakInvariant start all db)
    (htakes : TakesBatch start all db batch) (heligible : eligibleOf db batch = []) :
    StreakInvariant start all (takeBatch db batch) := by
  have htaken : (Triggers.takeBatch db batch).outcomes = (Triggers.takeBatch db batch).outcomes :=
      rfl
  have hmem := htakes.mem_consumed htaken
  have hnone : forall outcome, outcome ∈ batch ->
      ¬ isAfterResume (streakOf start).resumedAfter outcome = true := by
    intro outcome hbatch hresumed
    have hfilter : outcome ∈ eligibleOf db batch :=
      List.mem_filter.mpr ⟨hbatch, h.rows.resumedAfter_eq ▸ hresumed⟩
    rw [heligible] at hfilter
    exact List.not_mem_nil hfilter
  have hsame : Eligible start (consumed all (Triggers.takeBatch db batch)) ↔
      Eligible start (consumed all db) := by
    constructor
    · intro hexists
      rcases hexists with ⟨outcome, hconsumed, hresumed⟩
      cases (hmem outcome).mp hconsumed with
      | inl hold => exact ⟨outcome, hold, hresumed⟩
      | inr hnew => exact absurd hresumed (hnone outcome hnew)
    · intro hexists
      rcases hexists with ⟨outcome, hconsumed, hresumed⟩
      exact ⟨outcome, (hmem outcome).mpr (Or.inl hconsumed), hresumed⟩
  constructor
  · exact htakes.rowsOf rfl rfl h.rows.failures_nodup fun _ hfailure => Or.inl hfailure
  · constructor
    · exact h.watermark.prior_le
    · intro outcome hconsumed hresumed
      cases (hmem outcome).mp hconsumed with
      | inl hold => exact h.watermark.consumed_le outcome hold hresumed
      | inr hnew => exact absurd hresumed (hnone outcome hnew)
    · exact h.watermark.attained
  · intro hnot
    have huntouched := h.untouched fun hexists => hnot (hsame.mpr hexists)
    exact
      { success_eq := huntouched.success_eq
        legacy_eq := huntouched.legacy_eq
        consecutive_eq := huntouched.consecutive_eq
        failures_eq := huntouched.failures_eq }
  · intro hexists
    have hfolded := h.folded (hsame.mp hexists)
    have hpool := htakes.filter_foldedPool htaken (streakOf db).success
    rw [heligible, failuresOf, List.filter_nil, List.toFinset_nil, Finset.union_empty] at hpool
    exact
      { legacy_eq := hfolded.legacy_eq
        consecutive_eq := hfolded.consecutive_eq
        failures_eq := hfolded.failures_eq.trans (latestCounted_congr hpool.symm) }

theorem StreakInvariant.watermark_fold (h : StreakInvariant start all db)
    (htakes : TakesBatch start all db batch) (hfolds : FoldsEligible db batch folded) :
    WatermarkOf start all folded := by
  have hgreatest := isGreatestSuccess_advanceSuccessWatermark (streakOf db).success
    (eligibleOf db batch ++ (readPendingSuccess (Triggers.takeBatch db batch).outcomes
      (streakOf db).resumedAfter).toList)
  constructor
  · rw [hfolds.success_eq]
    exact h.watermark.prior_le.trans hgreatest.prior_le
  · intro outcome hconsumed hresumed hcounts
    rw [hfolds.success_eq]
    cases (htakes.mem_consumed hfolds.outcomes_eq outcome).mp hconsumed with
    | inl hold =>
        exact (h.watermark.consumed_le outcome hold hresumed hcounts).trans hgreatest.prior_le
    | inr hnew =>
        apply hgreatest.outcome_le outcome _ hcounts
        apply List.mem_append_left
        exact List.mem_filter.mpr ⟨hnew, h.rows.resumedAfter_eq ▸ hresumed⟩
  · rw [hfolds.success_eq]
    rcases hgreatest.attained with hsame | ⟨outcome, hmem, hcounts, hposition⟩
    · rw [foldedSuccess, hsame]
      exact h.watermark.attained
    · right
      rw [← h.rows.resumedAfter_eq]
      cases List.mem_append.mp hmem with
      | inl hnew =>
          have hfilter := List.mem_filter.mp hnew
          have hpending := htakes.batch_subset hfilter.left
          exact ⟨outcome, h.rows.pending_subset hpending, hfilter.right, hcounts, hposition⟩
      | inr hread =>
          have hpending := readPendingSuccess_mem (Option.mem_toList.mp hread)
          have htaken := (mem_takeBatch_iff htakes.separated_outcomes htakes.batch_subset).mp
            hpending.left
          exact ⟨outcome, h.rows.pending_subset htaken.left, hpending.right, hcounts, hposition⟩

theorem StreakInvariant.foldedFrom (h : StreakInvariant start all db)
    (htakes : TakesBatch start all db batch) (hfolds : FoldsEligible db batch folded) :
    FoldedFrom start (consumed all folded) folded := by
  have hfoldable := htakes.foldable
  have hstored := hfoldable.storedFailures_spec (foldedSuccess db batch)
  have hle : level (streakOf db).success ≤ level (foldedSuccess db batch) :=
    (isGreatestSuccess_advanceSuccessWatermark _ _).prior_le
  constructor
  · rw [hfolds.legacy_eq, hfolds.success_eq]
    cases hsuccess : foldedSuccess db batch with
    | some latest => rfl
    | none =>
        -- Without a watermark now there was none before, and the carry was kept.
        rw [hsuccess] at hle
        have hbefore : (streakOf db).success = none := level_injective (le_bot_iff.mp hle)
        rw [Option.isNone_none, if_pos rfl, if_pos rfl]
        by_cases heligible : Eligible start (consumed all db)
        · rw [(h.folded heligible).legacy_eq, hbefore, Option.isNone_none, if_pos rfl]
        · exact (h.untouched heligible).legacy_eq
  · rw [hfolds.consecutive_eq, hfolds.failures_eq, hfoldable.length_storedFailures, keptFailures,
      streakLength_lastItems]
  · rw [hfolds.failures_eq, hstored.right, hfolds.success_eq, h.rows.resumedAfter_eq,
      h.latestCounted_eq hle]
    exact latestCounted_congr (htakes.filter_foldedPool hfolds.outcomes_eq _).symm

theorem StreakInvariant.foldEligible (h : StreakInvariant start all db)
    (htakes : TakesBatch start all db batch) (heligible : eligibleOf db batch ≠ [])
    (hfolds : FoldsEligible db batch folded) : StreakInvariant start all folded := by
  have hfoldable := htakes.foldable
  have hstored := hfoldable.storedFailures_spec (foldedSuccess db batch)
  constructor
  · apply htakes.rowsOf hfolds.outcomes_eq hfolds.resumedAfter_eq
    · rw [hfolds.failures_eq]
      exact hstored.left
    · intro failure hmem
      rw [hfolds.failures_eq, ← List.mem_toFinset, hstored.right] at hmem
      have hpool := (Finset.mem_filter.mp (Finset.mem_filter.mp hmem).left).left
      rw [Finset.mem_union, List.mem_toFinset, List.mem_toFinset] at hpool
      cases hpool with
      | inl hold => exact Or.inl hold
      | inr hnew => exact Or.inr (List.mem_of_mem_filter (List.mem_of_mem_filter hnew))
  · exact h.watermark_fold htakes hfolds
  · intro hnot
    rcases List.exists_mem_of_ne_nil _ heligible with ⟨outcome, hmem⟩
    have hfilter := List.mem_filter.mp hmem
    exact absurd
      ⟨outcome, (htakes.mem_consumed hfolds.outcomes_eq outcome).mpr (Or.inr hfilter.left),
      h.rows.resumedAfter_eq ▸ hfilter.right⟩ hnot
  · exact fun _ => h.foldedFrom htakes hfolds

theorem RowsOf.takesBatch (h : RowsOf start all db) (hseparated : Separated (start.failures ++ all))
    (candidateIds : List Uuid) (locked : Uuid -> Bool) :
    TakesBatch start all db (batchOf db candidateIds locked) :=
  { rows := h
    separated := hseparated
    batch_nodup := nodup_batchOf h.pending_nodup
    batch_subset := batchOf_subset }

theorem StreakInvariant.fold (h : StreakInvariant start all db)
    (hseparated : Separated (start.failures ++ all)) (candidateIds : List Uuid)
    (locked : Uuid -> Bool) (now : Time) :
    StreakInvariant start all (foldWorkflow db candidateIds locked now).fst := by
  have htakes := h.rows.takesBatch hseparated candidateIds locked
  rcases foldWorkflow_cases db candidateIds locked now with hsame | ⟨hnone, htaken⟩ |
      ⟨hsome, hfolds⟩
  · rw [hsame]
    exact h
  · rw [htaken]
    exact h.takeBatch htakes hnone
  · exact h.foldEligible htakes hsome hfolds

theorem StreakRun.invariant {events : List (StreakEvent Time Uuid)}
    (h : StreakRun start events db)
    (hseparated : Separated (start.failures ++ seen start events))
    (hnodup : (start.failures ++ seen start events).Nodup) :
    StreakInvariant start (seen start events) db := by
  apply Run.invariant h (fun events db => Separated (start.failures ++ seen start events) ->
    (start.failures ++ seen start events).Nodup -> StreakInvariant start (seen start events) db)
    _ _ hseparated hnodup
  · intro initial hinitial _ hnodup
    rw [seen, arrivals, List.filterMap_nil, List.append_nil] at hnodup ⊢
    exact hinitial ▸ streakInvariant_start start hnodup
  · intro events before event after _ ih hstep hseparated hnodup
    have hseen : seen start (events ++ [event]) = seen start events ++ arrivals [event] := by
      rw [seen, seen, arrivals, List.filterMap_append, List.append_assoc]
      rfl
    rw [hstep]
    rw [hseen] at hseparated hnodup ⊢
    have hbefore : StreakInvariant start (seen start events) before := by
      apply ih
      · apply hseparated.subset
        intro outcome hmem
        rw [← List.append_assoc]
        exact List.mem_append_left _ hmem
      · rw [← List.append_assoc] at hnodup
        exact (List.nodup_append.mp hnodup).left
    cases event with
    | arrive outcome => exact hbefore.arrive hnodup
    | fold candidateIds locked now =>
        change Separated (_ ++ (_ ++ [])) at hseparated
        change StreakInvariant start (_ ++ []) _
        rw [List.append_nil] at hseparated ⊢
        exact hbefore.fold hseparated candidateIds locked now
    | administer workspace workflow =>
        change StreakInvariant start (_ ++ []) _
        rw [List.append_nil]
        exact hbefore.of_rows_eq rfl rfl rfl

/-!
## The streak of the whole set of outcomes
-/

structure StreakSummary (Time Uuid : Type) where
  success : Option (CompletionPosition Time Uuid)
  retained : List (TriggerOutcome Time Uuid)
  legacyFailures : Nat
  consecutiveFailures : Nat
deriving DecidableEq

def summary (db : PauseDatabase Time Uuid) : StreakSummary Time Uuid :=
  { success := (streakOf db).success
    retained := sortCompletions db.failures
    legacyFailures := (streakOf db).legacyFailures
    consecutiveFailures := (streakOf db).consecutiveFailures }

/-- The streak computed from all outcomes at once. When all of them came before
the resume it is the streak of the start. -/
def wholeStreak (start : PauseDatabase Time Uuid) (all : List (TriggerOutcome Time Uuid)) :
    StreakSummary Time Uuid :=
  let prior := streakOf start
  let eligible := all.filter (isAfterResume prior.resumedAfter)
  if eligible.isEmpty then summary start
  else
    let success := advanceSuccessWatermark prior.success eligible
    let counted := (start.failures ++ failuresOf all).filter fun failure =>
      isAfterResume prior.resumedAfter failure && isAfterSuccess success failure
    let retained := lastItems maxAutoPauseThreshold (sortCompletions counted)
    let legacyFailures := if success.isNone then prior.legacyFailures else 0
    { success
      retained
      legacyFailures
      consecutiveFailures := streakLength legacyFailures retained.length }

theorem consumed_eq_self (h : db.outcomes = []) : consumed all db = all := by
  rw [consumed, h]
  simp

/-- With nothing pending the watermark is the greatest success of the run. -/
theorem WatermarkOf.eq_advanceSuccessWatermark (h : WatermarkOf start all db)
    (hdrained : db.outcomes = []) :
    (streakOf db).success = advanceSuccessWatermark (streakOf start).success
      (all.filter (isAfterResume (streakOf start).resumedAfter)) := by
  have hgreatest := isGreatestSuccess_advanceSuccessWatermark (streakOf start).success
    (all.filter (isAfterResume (streakOf start).resumedAfter))
  apply level_injective
  apply le_antisymm
  · rcases h.attained with hsame | ⟨outcome, hmem, hresumed, hcounts, hposition⟩
    · rw [hsame]
      exact hgreatest.prior_le
    · rw [hposition]
      exact hgreatest.outcome_le outcome (List.mem_filter.mpr ⟨hmem, hresumed⟩) hcounts
  · apply hgreatest.level_le h.prior_le
    intro outcome hmem hcounts
    have hfilter := List.mem_filter.mp hmem
    apply h.consumed_le outcome _ hfilter.right hcounts
    rw [consumed_eq_self hdrained]
    exact hfilter.left

omit [LinearOrder Uuid] in
theorem eligible_iff_ne_nil :
    Eligible start all ↔
      ¬ (all.filter (isAfterResume (streakOf start).resumedAfter)).isEmpty = true := by
  rw [List.isEmpty_iff, List.filter_eq_nil_iff]
  simp [Eligible]

theorem StreakInvariant.summary_eq (h : StreakInvariant start all db)
    (hseparated : Separated (start.failures ++ all)) (hnodup : (start.failures ++ all).Nodup)
    (hdrained : db.outcomes = []) : summary db = wholeStreak start all := by
  have hconsumed : consumed all db = all := consumed_eq_self hdrained
  have hsuccess := h.watermark.eq_advanceSuccessWatermark hdrained
  by_cases heligible : Eligible start all
  · have hfolded := h.folded (hconsumed.symm ▸ heligible)
    have hretained : sortCompletions db.failures =
        lastItems maxAutoPauseThreshold (sortCompletions
          ((start.failures ++ failuresOf all).filter fun failure =>
            isAfterResume (streakOf start).resumedAfter failure &&
              isAfterSuccess (streakOf db).success failure)) := by
      have hsubset : start.failures ++ failuresOf all ⊆ start.failures ++ all :=
        List.append_subset.mpr ⟨List.subset_append_left _ _, fun _ hmem =>
          List.mem_append_right _ (List.mem_of_mem_filter hmem)⟩
      have hsublist : (start.failures ++ failuresOf all).Nodup :=
        hnodup.sublist (List.Sublist.append (List.Sublist.refl _) List.filter_sublist)
      have hwhole := pairwise_sortCompletions (hseparated.subset fun _ hmem =>
        hsubset (List.mem_of_mem_filter hmem)) (hsublist.filter fun failure =>
          isAfterResume (streakOf start).resumedAfter failure &&
            isAfterSuccess (streakOf db).success failure)
      apply eq_of_pairwise_lt (pairwise_sortCompletions
        (hseparated.subset h.rows.failures_subset) h.rows.failures_nodup)
      · exact pairwise_lastItems hwhole
      · rw [toFinset_lastItems hwhole, toFinset_sortCompletions, toFinset_sortCompletions,
          hfolded.failures_eq, hconsumed, List.toFinset_filter, List.toFinset_append]
        rfl
    have hlength : (sortCompletions db.failures).length = db.failures.length :=
      (perm_sortCompletions db.failures).length_eq
    simp only [wholeStreak, if_neg (eligible_iff_ne_nil.mp heligible), summary, ← hsuccess,
      ← hretained, hlength]
    rw [hfolded.consecutive_eq, hfolded.legacy_eq]
  · have huntouched := h.untouched (hconsumed.symm ▸ heligible)
    have hempty := not_not.mp (mt eligible_iff_ne_nil.mpr heligible)
    simp only [wholeStreak, hempty, if_true, summary, huntouched.success_eq,
      huntouched.legacy_eq, huntouched.consecutive_eq, huntouched.failures_eq]

/-!
## Pauses
-/

/-- A pending success is before every failure that a fold of eligible outcomes retains. -/
theorem RowsOf.key_lt_of_pending (h : RowsOf start all db)
    (hseparated : Separated (start.failures ++ all)) (htakes : TakesBatch start all db batch)
    (hfolds : FoldsEligible db batch folded) {success failure : TriggerOutcome Time Uuid}
    (hsuccess : success ∈ folded.outcomes) (hcounts : success.countsAsFailure = false)
    (hfailure : failure ∈ folded.failures) : success.key < failure.key := by
  have hstored := htakes.foldable.storedFailures_spec (foldedSuccess db batch)
  rw [hfolds.failures_eq, ← List.mem_toFinset, hstored.right] at hfailure
  have hcounted := counts_iff.mp (Finset.mem_filter.mp (Finset.mem_filter.mp hfailure).left).right
  rw [hfolds.outcomes_eq] at hsuccess
  by_cases hresumed : isAfterResume (streakOf db).resumedAfter success = true
  · have hsub : (takeBatch db batch).outcomes ⊆ start.failures ++ all := fun _ hmem =>
      List.mem_append_right _ (h.pending_subset (List.mem_of_mem_filter hmem))
    rcases key_le_of_readPendingSuccess (hseparated.subset hsub)
      (h.pending_nodup.filter _) hsuccess hcounts hresumed with ⟨latest, hread, hlatest, hle⟩
    have hgreatest := isGreatestSuccess_advanceSuccessWatermark (streakOf db).success
      (eligibleOf db batch ++ (readPendingSuccess (takeBatch db batch).outcomes
        (streakOf db).resumedAfter).toList)
    have hlevel := hgreatest.outcome_le latest
      (List.mem_append_right _ (Option.mem_toList.mpr hread)) hlatest
    exact hle.trans_lt (WithBot.coe_lt_coe.mp (hlevel.trans_lt hcounted.right))
  · -- What came before the resume came before everything that counts after it.
    by_contra hnot
    cases (le_of_not_gt hnot).eq_or_lt with
    | inl heq =>
        have hended : failure.endedAt = success.endedAt :=
          congrArg CompletionPosition.endedAt (CompletionPosition.key_injective heq)
        have hsame : isAfterResume (streakOf db).resumedAfter success =
            isAfterResume (streakOf db).resumedAfter failure := by
          rw [isAfterResume.eq_def, isAfterResume.eq_def, hended]
        exact hresumed (hsame.trans hcounted.left)
    | inr hlt => exact hresumed (isAfterResume_of_key_lt hcounted.left hlt)

theorem foldsEligible_of_decision {candidateIds : List Uuid} {locked : Uuid -> Bool} {now : Time}
    {decision : PauseDecision}
    (h : (foldWorkflow db candidateIds locked now).snd = some decision) :
    FoldsEligible db (batchOf db candidateIds locked)
      (foldWorkflow db candidateIds locked now).fst := by
  rcases foldWorkflow_cases db candidateIds locked now with hsame | ⟨_, htaken⟩ | ⟨_, hfolds⟩
  · rw [hsame] at h
    cases h
  · rw [htaken] at h
    cases h
  · exact hfolds

/-- Whatever the order and the batches of the folds, a drained run ends with the
streak of its whole set of outcomes, and no fold pauses the workflow while a
success after the retained failures is pending. -/
theorem streak_independent_of_folding {events : List (StreakEvent Time Uuid)}
    (hrun : StreakRun start events db)
    (hseparated : Separated (start.failures ++ seen start events))
    (hnodup : (start.failures ++ seen start events).Nodup) :
    (db.outcomes = [] -> summary db = wholeStreak start (seen start events)) ∧
    (forall candidateIds locked now decision,
      (foldWorkflow db candidateIds locked now).snd = some decision ->
      forall success failure,
        success ∈ (foldWorkflow db candidateIds locked now).fst.outcomes ->
        success.countsAsFailure = false ->
        failure ∈ (foldWorkflow db candidateIds locked now).fst.failures ->
        success.key < failure.key) := by
  have hinvariant := hrun.invariant hseparated hnodup
  constructor
  · exact hinvariant.summary_eq hseparated hnodup
  · intro candidateIds locked now decision hdecision success failure hsuccess hcounts hfailure
    exact hinvariant.rows.key_lt_of_pending hseparated
      (hinvariant.rows.takesBatch hseparated candidateIds locked)
      (foldsEligible_of_decision hdecision) hsuccess hcounts hfailure

theorem streakRun_foldl (start : PauseDatabase Time Uuid)
    (events : List (StreakEvent Time Uuid)) :
    StreakRun start events (events.foldl applyEvent start) := by
  induction events using List.reverseRecOn with
  | nil => exact Run.start rfl
  | append_singleton events event ih =>
      rw [List.foldl_concat]
      exact Run.step ih rfl

end

/-- Two failures and the success between them, of a workflow that pauses after one failure. -/
def sampleStart : PauseDatabase Nat Nat :=
  { workspace := some { status := .active, autoPauseThreshold := 1 }
    workflow := some
      { autoPauseEnabled := true
        autoPauseThreshold := none
        lifecycleStatus := .active
        triggerPauseState := .none
        triggerPausedAt := none
        triggerPauseReason := none
        triggerPauseFailures := none
        triggerPauseLastRunId := none
        triggerPauseRevision := 0 }
    outcomes := [{ endedAt := 30, id := 3, runId := 13, countsAsFailure := true }]
    streak := none
    failures := []
    audits := [] }

def sampleEvents : List (StreakEvent Nat Nat) :=
  [.fold [3] (fun _ => false) 40,
   .arrive { endedAt := 10, id := 1, runId := 11, countsAsFailure := true },
   .arrive { endedAt := 20, id := 2, runId := 12, countsAsFailure := false },
   .fold [1] (fun _ => false) 50,
   .fold [2, 3] (fun _ => false) 60]

theorem streak_independent_of_folding_sample :
    summary (sampleEvents.foldl applyEvent sampleStart) =
      wholeStreak sampleStart (seen sampleStart sampleEvents) :=
  (streak_independent_of_folding (streakRun_foldl sampleStart sampleEvents)
    (by decide) (by decide)).left (by decide)

end Triggers
end Pertexo
