import Pertexo.Library.Runs
import Pertexo.Triggers.Completions

/-!
# Folding in any order

## One fold

The failures after a fold are the latest of those retained before and those
folded in that come after the resume and the watermark.
-/

namespace Pertexo
namespace Triggers

open Library

section

variable {Time Uuid : Type} [LinearOrder Time] [LinearOrder Uuid]

def Counts (resumedAfter : Option Time) (success : Option (CompletionPosition Time Uuid))
    (outcome : TriggerOutcome Time Uuid) : Prop :=
  (isAfterResume resumedAfter outcome && isAfterSuccess success outcome) = true

instance (resumedAfter : Option Time) (success : Option (CompletionPosition Time Uuid)) :
    DecidablePred (Counts resumedAfter success) :=
  fun _ => inferInstanceAs (Decidable ((_ && _) = true))

variable {resumedAfter : Option Time} {success later : Option (CompletionPosition Time Uuid)}

theorem counts_iff {outcome : TriggerOutcome Time Uuid} :
    Counts resumedAfter success outcome ↔
      isAfterResume resumedAfter outcome = true ∧ level success < outcome.key := by
  rw [Counts, Bool.and_eq_true, isAfterSuccess_iff]

theorem counts_of_key_lt {low high : TriggerOutcome Time Uuid}
    (h : Counts resumedAfter success low) (hlt : low.key < high.key) :
    Counts resumedAfter success high := by
  rw [counts_iff] at h ⊢
  exact ⟨isAfterResume_of_key_lt h.left hlt, h.right.trans (WithBot.coe_lt_coe.mpr hlt)⟩

theorem counts_of_level_le {outcome : TriggerOutcome Time Uuid}
    (h : Counts resumedAfter later outcome) (hle : level success ≤ level later) :
    Counts resumedAfter success outcome := by
  rw [counts_iff] at h ⊢
  exact ⟨h.left, hle.trans_lt h.right⟩

def latestCounted (resumedAfter : Option Time)
    (success : Option (CompletionPosition Time Uuid))
    (pool : Finset (TriggerOutcome Time Uuid)) : Finset (TriggerOutcome Time Uuid) :=
  latestOf TriggerOutcome.key maxAutoPauseThreshold (pool.filter (Counts resumedAfter success))

/-- Dropping failures early, for an earlier watermark, loses none that counts later. -/
theorem latestCounted_latestCounted (hle : level success ≤ level later)
    (pool added : Finset (TriggerOutcome Time Uuid)) :
    latestCounted resumedAfter later (latestCounted resumedAfter success pool ∪ added) =
      latestCounted resumedAfter later (pool ∪ added) := by
  have hupper : forall low high : TriggerOutcome Time Uuid,
      Counts resumedAfter later low -> low.key < high.key -> Counts resumedAfter later high :=
    fun _ _ hlow hlt => counts_of_key_lt hlow hlt
  have hboth : (pool.filter (Counts resumedAfter success)).filter (Counts resumedAfter later) =
      pool.filter (Counts resumedAfter later) := by
    rw [Finset.filter_filter]
    apply Finset.filter_congr
    intro outcome _
    exact ⟨fun h => h.right, fun h => ⟨counts_of_level_le h hle, h⟩⟩
  rw [latestCounted, latestCounted, latestCounted, Finset.filter_union, Finset.filter_union,
    ← latestOf_filter hupper, hboth, latestOf_latestOf_union]

theorem toFinset_reverse_take {outcomes : List (TriggerOutcome Time Uuid)} {n : Nat} :
    (outcomes.reverse.take n).toFinset = (lastItems n outcomes).toFinset := by
  rw [List.take_reverse, List.toFinset_reverse, lastItems]

structure Foldable (failures eligible : List (TriggerOutcome Time Uuid))
    (resumedAfter : Option Time) : Prop where
  separated : Separated (failures ++ eligible)
  nodup : (failures ++ eligible).Nodup
  resumed : forall outcome, outcome ∈ eligible -> isAfterResume resumedAfter outcome = true

variable {failures eligible : List (TriggerOutcome Time Uuid)}

def additionsOf (success : Option (CompletionPosition Time Uuid))
    (eligible : List (TriggerOutcome Time Uuid)) : List (TriggerOutcome Time Uuid) :=
  eligible.filter fun outcome => outcome.countsAsFailure && isAfterSuccess success outcome

def failuresOf (outcomes : List (TriggerOutcome Time Uuid)) : List (TriggerOutcome Time Uuid) :=
  outcomes.filter TriggerOutcome.countsAsFailure

theorem positionedFailures_sublist :
    positionedFailures resumedAfter success failures ⊆ failures := by
  intro outcome hmem
  have hsorted := List.mem_reverse.mp (List.mem_of_mem_take hmem)
  exact List.mem_of_mem_filter ((perm_sortCompletions _).mem_iff.mp hsorted)

omit [LinearOrder Uuid] in
theorem Foldable.nodup_filter (h : Foldable failures eligible resumedAfter)
    (p : TriggerOutcome Time Uuid -> Bool) : (failures.filter p).Nodup :=
  (List.nodup_append.mp h.nodup).left.filter p

theorem Foldable.toFinset_positioned (h : Foldable failures eligible resumedAfter) :
    (positionedFailures resumedAfter success failures).toFinset =
      latestCounted resumedAfter success failures.toFinset := by
  have hsub : failures.filter (fun failure => isAfterResume resumedAfter failure &&
      isAfterSuccess success failure) ⊆ failures ++ eligible := fun outcome hmem =>
    List.mem_append_left _ (List.mem_of_mem_filter hmem)
  have hsorted := pairwise_sortCompletions (h.separated.subset hsub) (h.nodup_filter _)
  rw [positionedFailures, toFinset_reverse_take, toFinset_lastItems hsorted,
    toFinset_sortCompletions, List.toFinset_filter, latestCounted]
  rfl

theorem Foldable.toFinset_additions (h : Foldable failures eligible resumedAfter) :
    (additionsOf success eligible).toFinset =
      (failuresOf eligible).toFinset.filter (Counts resumedAfter success) := by
  ext outcome
  simp only [additionsOf, failuresOf, List.toFinset_filter, Finset.mem_filter, List.mem_toFinset,
    Bool.and_eq_true, Counts]
  constructor
  · exact fun hadded => ⟨⟨hadded.left, hadded.right.left⟩, h.resumed outcome hadded.left,
      hadded.right.right⟩
  · exact fun hcounted => ⟨hcounted.left.left, hcounted.left.right, hcounted.right.right⟩

theorem Foldable.separated_ordered (h : Foldable failures eligible resumedAfter) :
    Separated (positionedFailures resumedAfter success failures ++
      additionsOf success eligible) := by
  apply h.separated.subset
  intro outcome hmem
  cases List.mem_append.mp hmem with
  | inl hold => exact List.mem_append_left _ (positionedFailures_sublist hold)
  | inr hnew => exact List.mem_append_right _ (List.mem_of_mem_filter hnew)

theorem Foldable.nodup_ordered (h : Foldable failures eligible resumedAfter) :
    (positionedFailures resumedAfter success failures ++
      additionsOf success eligible).Nodup := by
  rcases List.nodup_append.mp h.nodup with ⟨_, heligible, hdisjoint⟩
  apply List.nodup_append.mpr
  refine ⟨?_, heligible.filter _, ?_⟩
  · apply List.Nodup.sublist (List.take_sublist _ _)
    rw [List.nodup_reverse, (perm_sortCompletions _).nodup_iff]
    exact h.nodup_filter _
  · intro old hold new hnew
    exact hdisjoint old (positionedFailures_sublist hold) new (List.mem_of_mem_filter hnew)

def orderedFailures (resumedAfter : Option Time)
    (success : Option (CompletionPosition Time Uuid))
    (failures eligible : List (TriggerOutcome Time Uuid)) : List (TriggerOutcome Time Uuid) :=
  sortCompletions (positionedFailures resumedAfter success failures ++
    additionsOf success eligible)

def keptFailures (resumedAfter : Option Time)
    (success : Option (CompletionPosition Time Uuid))
    (failures eligible : List (TriggerOutcome Time Uuid)) : List (TriggerOutcome Time Uuid) :=
  lastItems maxAutoPauseThreshold (orderedFailures resumedAfter success failures eligible)

theorem Foldable.pairwise_ordered (h : Foldable failures eligible resumedAfter) :
    (orderedFailures resumedAfter success failures eligible).Pairwise
      fun left right => left.key < right.key :=
  pairwise_sortCompletions h.separated_ordered h.nodup_ordered

theorem Foldable.toFinset_kept (h : Foldable failures eligible resumedAfter) :
    (keptFailures resumedAfter success failures eligible).toFinset =
      latestCounted resumedAfter success (failures.toFinset ∪ (failuresOf eligible).toFinset) := by
  rw [keptFailures, toFinset_lastItems h.pairwise_ordered, orderedFailures,
    toFinset_sortCompletions, List.toFinset_append, h.toFinset_positioned, h.toFinset_additions,
    latestCounted, latestOf_latestOf_union, latestCounted, Finset.filter_union]

/-!
## Rows of retained failures
-/

def storedFailures (resumedAfter : Option Time)
    (success : Option (CompletionPosition Time Uuid))
    (failures eligible : List (TriggerOutcome Time Uuid)) : List (TriggerOutcome Time Uuid) :=
  let kept := keptFailures resumedAfter success failures eligible
  let inserts := kept.filter fun failure =>
    (additionsOf success eligible).any fun added => added.id == failure.id
  inserts.foldl insertFailure (deleteFailuresBefore kept.head? failures)

omit [LinearOrder Time] in
theorem foldl_insertFailure {inserts failures : List (TriggerOutcome Time Uuid)}
    (hseparated : Separated (failures ++ inserts)) (hnodup : (failures ++ inserts).Nodup) :
    inserts.foldl insertFailure failures = failures ++ inserts := by
  induction inserts generalizing failures with
  | nil => simp
  | cons failure rest ih =>
      have hnew : insertFailure failures failure = failures ++ [failure] := by
        rw [insertFailure, if_neg]
        intro hconflict
        rcases List.any_eq_true.mp hconflict with ⟨other, hother, hsame⟩
        rw [Bool.or_eq_true, beq_iff_eq, beq_iff_eq] at hsame
        have heq := hseparated other (List.mem_append_left _ hother) failure
          (List.mem_append_right _ (List.mem_cons_self ..)) hsame
        have hdisjoint := (List.nodup_append.mp hnodup).right.right
        exact hdisjoint other hother failure (List.mem_cons_self ..) heq
      rw [List.append_cons] at hseparated hnodup
      rw [List.foldl_cons, hnew, ih hseparated hnodup, List.append_assoc]
      rfl

theorem mem_of_mem_kept {outcome : TriggerOutcome Time Uuid}
    (hmem : outcome ∈ keptFailures resumedAfter success failures eligible) :
    outcome ∈ failures ∨ outcome ∈ additionsOf success eligible := by
  have hordered := (perm_sortCompletions _).mem_iff.mp (List.mem_of_mem_drop hmem)
  cases List.mem_append.mp hordered with
  | inl hold => exact Or.inl (positionedFailures_sublist hold)
  | inr hnew => exact Or.inr hnew

theorem Foldable.nodup_kept (h : Foldable failures eligible resumedAfter) :
    (keptFailures resumedAfter success failures eligible).Nodup :=
  nodup_of_pairwise_lt (h.pairwise_ordered.sublist (List.drop_sublist _ _))

theorem Foldable.mem_kept_of_not_lt (h : Foldable failures eligible resumedAfter)
    (first outcome : TriggerOutcome Time Uuid)
    (hfirst : first ∈ keptFailures resumedAfter success failures eligible)
    (hmem : outcome ∈ failures) (hle : ¬ outcome.key < first.key) :
    outcome ∈ keptFailures resumedAfter success failures eligible := by
  rw [← List.mem_toFinset, h.toFinset_kept, latestCounted, mem_latestOf] at hfirst ⊢
  rcases Finset.mem_filter.mp hfirst.left with ⟨_, hcounts⟩
  by_cases heq : outcome = first
  · rw [heq]
    exact hfirst
  have hlt : first.key < outcome.key := by
    apply lt_of_le_of_ne (le_of_not_gt hle)
    intro hkey
    have hfirstKnown : first ∈ failures ++ eligible := by
      have hpool := (Finset.mem_filter.mp hfirst.left).left
      rw [Finset.mem_union, List.mem_toFinset, List.mem_toFinset] at hpool
      cases hpool with
      | inl hold => exact List.mem_append_left _ hold
      | inr hnew => exact List.mem_append_right _ (List.mem_of_mem_filter hnew)
    exact heq (h.separated.eq_of_key (List.mem_append_left _ hmem) hfirstKnown hkey.symm)
  constructor
  · apply Finset.mem_filter.mpr
    exact ⟨Finset.mem_union_left _ (List.mem_toFinset.mpr hmem), counts_of_key_lt hcounts hlt⟩
  · apply lt_of_le_of_lt _ hfirst.right
    apply Finset.card_le_card
    intro other hother
    rcases Finset.mem_filter.mp hother with ⟨hpool, habove⟩
    exact Finset.mem_filter.mpr ⟨hpool, hlt.trans habove⟩

theorem Foldable.mem_deleteFailuresBefore_iff (h : Foldable failures eligible resumedAfter)
    {outcome : TriggerOutcome Time Uuid} :
    outcome ∈ deleteFailuresBefore
        (keptFailures resumedAfter success failures eligible).head? failures ↔
      outcome ∈ failures ∧ outcome ∈ keptFailures resumedAfter success failures eligible := by
  have hsorted : (keptFailures resumedAfter success failures eligible).Pairwise
      fun left right => left.key < right.key := h.pairwise_ordered.sublist (List.drop_sublist _ _)
  have hnotBefore : forall first, first ∈ keptFailures resumedAfter success failures eligible ->
      outcome ∈ failures -> ¬ outcome.key < first.key ->
      outcome ∈ keptFailures resumedAfter success failures eligible := fun first =>
    h.mem_kept_of_not_lt first outcome
  cases hkept : keptFailures resumedAfter success failures eligible with
  | nil => simp [deleteFailuresBefore]
  | cons first rest =>
      rw [hkept] at hsorted hnotBefore
      rw [List.head?_cons, deleteFailuresBefore, List.mem_filter, bne_iff_ne, ne_eq,
        compareCompletions_eq_lt_iff]
      constructor
      · exact fun hmem => ⟨hmem.left, hnotBefore first (List.mem_cons_self ..) hmem.left hmem.right⟩
      · intro hmem
        constructor
        · exact hmem.left
        · cases List.mem_cons.mp hmem.right with
          | inl heq => exact heq ▸ lt_irrefl _
          | inr hrest =>
              exact not_lt_of_gt ((List.pairwise_cons.mp hsorted).left outcome hrest)

theorem Foldable.mem_inserts_iff (h : Foldable failures eligible resumedAfter)
    {outcome : TriggerOutcome Time Uuid} :
    outcome ∈ (keptFailures resumedAfter success failures eligible).filter (fun failure =>
        (additionsOf success eligible).any fun added => added.id == failure.id) ↔
      outcome ∈ additionsOf success eligible ∧
        outcome ∈ keptFailures resumedAfter success failures eligible := by
  rw [List.mem_filter, List.any_eq_true]
  constructor
  · intro hmem
    rcases hmem.right with ⟨added, hadded, hid⟩
    have hknown : outcome ∈ failures ++ eligible := by
      cases mem_of_mem_kept hmem.left with
      | inl hold => exact List.mem_append_left _ hold
      | inr hnew => exact List.mem_append_right _ (List.mem_of_mem_filter hnew)
    have heq := h.separated added (List.mem_append_right _ (List.mem_of_mem_filter hadded))
      outcome hknown (Or.inl (beq_iff_eq.mp hid))
    exact ⟨heq ▸ hadded, hmem.left⟩
  · intro hmem
    exact ⟨hmem.right, outcome, hmem.left, beq_iff_eq.mpr rfl⟩

/-- After a fold the table holds exactly the failures that were kept. -/
theorem Foldable.storedFailures_spec (h : Foldable failures eligible resumedAfter)
    (success : Option (CompletionPosition Time Uuid)) :
    (storedFailures resumedAfter success failures eligible).Nodup ∧
      (storedFailures resumedAfter success failures eligible).toFinset =
        latestCounted resumedAfter success
          (failures.toFinset ∪ (failuresOf eligible).toFinset) := by
  rcases List.nodup_append.mp h.nodup with ⟨hfailures, heligible, hdisjoint⟩
  have hdeleted : (deleteFailuresBefore
      (keptFailures resumedAfter success failures eligible).head? failures).Nodup := by
    rw [deleteFailuresBefore.eq_def]
    split
    · exact List.nodup_nil
    · exact hfailures.filter _
  have hinserts : ((keptFailures resumedAfter success failures eligible).filter fun failure =>
      (additionsOf success eligible).any fun added => added.id == failure.id).Nodup :=
    h.nodup_kept.filter _
  have hnodup := List.nodup_append.mpr ⟨hdeleted, hinserts, fun old hold new hnew =>
    hdisjoint old (h.mem_deleteFailuresBefore_iff.mp hold).left new
      (List.mem_of_mem_filter (h.mem_inserts_iff.mp hnew).left)⟩
  have hseparated : Separated (deleteFailuresBefore
      (keptFailures resumedAfter success failures eligible).head? failures ++
      (keptFailures resumedAfter success failures eligible).filter fun failure =>
        (additionsOf success eligible).any fun added => added.id == failure.id) := by
    apply h.separated.subset
    intro outcome hmem
    cases List.mem_append.mp hmem with
    | inl hold => exact List.mem_append_left _ (h.mem_deleteFailuresBefore_iff.mp hold).left
    | inr hnew =>
        exact List.mem_append_right _ (List.mem_of_mem_filter (h.mem_inserts_iff.mp hnew).left)
  rw [storedFailures, foldl_insertFailure hseparated hnodup, ← h.toFinset_kept]
  constructor
  · exact hnodup
  · ext outcome
    rw [List.mem_toFinset, List.mem_toFinset, List.mem_append, h.mem_deleteFailuresBefore_iff,
      h.mem_inserts_iff]
    constructor
    · intro hmem
      cases hmem with
      | inl hold => exact hold.right
      | inr hnew => exact hnew.right
    · intro hmem
      cases mem_of_mem_kept hmem with
      | inl hold => exact Or.inl ⟨hold, hmem⟩
      | inr hnew => exact Or.inr ⟨hnew, hmem⟩

omit [LinearOrder Time] [LinearOrder Uuid] in
theorem streakLength_lastItems (legacyFailures : Nat)
    (ordered : List (TriggerOutcome Time Uuid)) :
    streakLength legacyFailures (lastItems maxAutoPauseThreshold ordered).length =
      streakLength legacyFailures ordered.length := by
  rw [streakLength, streakLength, length_lastItems]
  omega

theorem Foldable.length_storedFailures (h : Foldable failures eligible resumedAfter) :
    (storedFailures resumedAfter success failures eligible).length =
      (keptFailures resumedAfter success failures eligible).length := by
  have hstored := h.storedFailures_spec success
  rw [← List.toFinset_card_of_nodup hstored.left, hstored.right, ← h.toFinset_kept,
    List.toFinset_card_of_nodup h.nodup_kept]

end

end Triggers
end Pertexo
