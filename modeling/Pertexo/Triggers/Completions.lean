import Pertexo.Triggers.FailureStreak

/-!
# The order of completions

## Keys

The key of a completion orders completions as the comparison does. A watermark
has a level below which no failure counts; without a watermark every one does.
-/

namespace Pertexo
namespace Triggers

open Library

section

variable {Time Uuid : Type}

def CompletionPosition.key (position : CompletionPosition Time Uuid) : Time ×ₗ Uuid :=
  toLex (position.endedAt, position.id)

def TriggerOutcome.key (outcome : TriggerOutcome Time Uuid) : Time ×ₗ Uuid :=
  outcome.position.key

def level (success : Option (CompletionPosition Time Uuid)) : WithBot (Time ×ₗ Uuid) :=
  success.map CompletionPosition.key

theorem CompletionPosition.key_injective :
    Function.Injective (@CompletionPosition.key Time Uuid) := by
  intro left right h
  have hpair : (left.endedAt, left.id) = (right.endedAt, right.id) := toLex.injective h
  cases left
  cases right
  simp_all

theorem level_injective : Function.Injective (@level Time Uuid) :=
  Option.map_injective CompletionPosition.key_injective

def Separated (outcomes : List (TriggerOutcome Time Uuid)) : Prop :=
  forall left, left ∈ outcomes -> forall right, right ∈ outcomes ->
    left.id = right.id ∨ left.runId = right.runId -> left = right

instance [DecidableEq Time] [DecidableEq Uuid] (outcomes : List (TriggerOutcome Time Uuid)) :
    Decidable (Separated outcomes) :=
  inferInstanceAs (Decidable (forall left, left ∈ outcomes -> forall right, right ∈ outcomes ->
    left.id = right.id ∨ left.runId = right.runId -> left = right))

theorem Separated.subset {outcomes some : List (TriggerOutcome Time Uuid)}
    (h : Separated outcomes) (hsub : some ⊆ outcomes) : Separated some :=
  fun left hleft right hright => h left (hsub hleft) right (hsub hright)

theorem Separated.eq_of_key {outcomes : List (TriggerOutcome Time Uuid)}
    (h : Separated outcomes) {left right : TriggerOutcome Time Uuid} (hleft : left ∈ outcomes)
    (hright : right ∈ outcomes) (hkey : left.key = right.key) : left = right := by
  apply h left hleft right hright
  left
  exact congrArg CompletionPosition.id (CompletionPosition.key_injective hkey)

end

section

variable {Time Uuid : Type} [LinearOrder Time] [LinearOrder Uuid]

theorem CompletionPosition.key_lt_iff {left right : CompletionPosition Time Uuid} :
    left.key < right.key ↔
      left.endedAt < right.endedAt ∨ left.endedAt = right.endedAt ∧ left.id < right.id :=
  Prod.Lex.lt_iff

theorem compareCompletions_eq_lt_iff {left right : CompletionPosition Time Uuid} :
    compareCompletions left right = .lt ↔ left.key < right.key := by
  rw [CompletionPosition.key_lt_iff, compareCompletions]
  split
  · next hlt => simp [hlt]
  split
  · next hnot hgt => simp [hnot, hgt.ne']
  · next hnot hngt =>
    have heq : left.endedAt = right.endedAt := le_antisymm (le_of_not_gt hngt) (le_of_not_gt hnot)
    split
    · next hid => simp [heq, hid]
    · next hid =>
      split
      · simp [heq, hid]
      · simp [heq, hid]

theorem compareCompletions_eq_gt_iff {left right : CompletionPosition Time Uuid} :
    compareCompletions left right = .gt ↔ right.key < left.key := by
  rw [CompletionPosition.key_lt_iff, compareCompletions]
  split
  · next hlt => simp [hlt.not_gt, hlt.ne']
  split
  · next hgt => simp only [true_iff]; exact Or.inl hgt
  · next hnot hngt =>
    have heq : left.endedAt = right.endedAt := le_antisymm (le_of_not_gt hngt) (le_of_not_gt hnot)
    split
    · next hid => simp [heq, hid.not_gt]
    · next hid =>
      split
      · next hgt => simp only [true_iff]; exact Or.inr ⟨heq.symm, hgt⟩
      · next hngtId =>
        simp only [reduceCtorEq, false_iff, not_or, not_and]
        exact ⟨heq ▸ lt_irrefl _, fun _ => hngtId⟩

theorem isLE_compareCompletions_iff {left right : CompletionPosition Time Uuid} :
    (compareCompletions left right).isLE = true ↔ left.key ≤ right.key := by
  rw [← not_lt, ← compareCompletions_eq_gt_iff]
  cases compareCompletions left right <;> simp

theorem isAfterSuccess_iff {success : Option (CompletionPosition Time Uuid)}
    {outcome : TriggerOutcome Time Uuid} :
    isAfterSuccess success outcome = true ↔ level success < outcome.key := by
  cases success with
  | none =>
      simp only [isAfterSuccess, true_iff]
      exact WithBot.bot_lt_coe _
  | some latest =>
      rw [isAfterSuccess, beq_iff_eq, compareCompletions_eq_gt_iff]
      exact WithBot.coe_lt_coe.symm

theorem isAfterResume_of_key_lt {resumedAfter : Option Time}
    {low high : TriggerOutcome Time Uuid} (h : isAfterResume resumedAfter low = true)
    (hlt : low.key < high.key) : isAfterResume resumedAfter high = true := by
  cases resumedAfter with
  | none => rfl
  | some resumed =>
      simp only [isAfterResume, decide_eq_true_eq] at h ⊢
      rcases CompletionPosition.key_lt_iff.mp hlt with hended | ⟨hended, _⟩
      · exact h.trans hended
      · exact lt_of_lt_of_eq h hended

/-!
## Sorting
-/

theorem perm_sortCompletions (outcomes : List (TriggerOutcome Time Uuid)) :
    (sortCompletions outcomes).Perm outcomes :=
  perm_sortWith _ _

@[simp] theorem toFinset_sortCompletions (outcomes : List (TriggerOutcome Time Uuid)) :
    (sortCompletions outcomes).toFinset = outcomes.toFinset :=
  List.toFinset_eq_of_perm _ _ (perm_sortCompletions outcomes)

theorem pairwise_sortCompletions {outcomes : List (TriggerOutcome Time Uuid)}
    (hseparated : Separated outcomes) (hnodup : outcomes.Nodup) :
    (sortCompletions outcomes).Pairwise fun left right => left.key < right.key := by
  have hperm := perm_sortCompletions outcomes
  have hsorted : (sortCompletions outcomes).Pairwise fun left right =>
      (compareCompletions left.position right.position).isLE = true := by
    have htotal : Std.Total fun left right : TriggerOutcome Time Uuid =>
        (compareCompletions left.position right.position).isLE = true := by
      constructor
      intro left right
      rw [isLE_compareCompletions_iff, isLE_compareCompletions_iff]
      exact le_total _ _
    have htrans : IsTrans (TriggerOutcome Time Uuid) fun left right =>
        (compareCompletions left.position right.position).isLE = true := by
      constructor
      intro left middle right hleft hright
      rw [isLE_compareCompletions_iff] at hleft hright ⊢
      exact hleft.trans hright
    exact List.pairwise_insertionSort _ _
  have hdistinct : (sortCompletions outcomes).Nodup := hperm.nodup_iff.mpr hnodup
  apply (hsorted.and hdistinct).imp_of_mem
  intro left right hleft hright h
  rw [isLE_compareCompletions_iff] at h
  apply lt_of_le_of_ne h.left
  intro heq
  exact h.right (hseparated.eq_of_key (hperm.mem_iff.mp hleft) (hperm.mem_iff.mp hright) heq)

/-!
## Watermarks
-/

theorem level_advanceSuccessWatermark_le_iff {prior : Option (CompletionPosition Time Uuid)}
    {outcomes : List (TriggerOutcome Time Uuid)} {bound : WithBot (Time ×ₗ Uuid)} :
    level (advanceSuccessWatermark prior outcomes) ≤ bound ↔
      level prior ≤ bound ∧ forall outcome, outcome ∈ outcomes ->
        outcome.countsAsFailure = false -> (outcome.key : WithBot (Time ×ₗ Uuid)) ≤ bound := by
  induction outcomes generalizing prior with
  | nil => simp [advanceSuccessWatermark]
  | cons outcome rest ih =>
      rw [advanceSuccessWatermark, List.foldl_cons]
      change level (advanceSuccessWatermark _ rest) ≤ bound ↔ _
      rw [ih]
      cases hcounts : outcome.countsAsFailure with
      | true => simp [hcounts]
      | false =>
          cases prior with
          | none =>
              simp only [Bool.false_eq_true, if_false, List.forall_mem_cons, hcounts,
                forall_const]
              have hbot : level (none : Option (CompletionPosition Time Uuid)) ≤ bound := bot_le
              simp only [hbot, true_and]
              rfl
          | some latest =>
              simp only [Bool.false_eq_true, if_false, List.forall_mem_cons, hcounts,
                forall_const, compareCompletions_eq_gt_iff]
              split
              · next hlater =>
                have hle : level (some latest) ≤ (outcome.key : WithBot (Time ×ₗ Uuid)) :=
                  (WithBot.coe_lt_coe.mpr hlater).le
                constructor
                · exact fun h => ⟨hle.trans h.left, h.left, h.right⟩
                · exact fun h => ⟨h.right.left, h.right.right⟩
              · next hnot =>
                have hle : (outcome.key : WithBot (Time ×ₗ Uuid)) ≤ level (some latest) :=
                  WithBot.coe_le_coe.mpr (le_of_not_gt hnot)
                constructor
                · exact fun h => ⟨h.left, hle.trans h.left, h.right⟩
                · exact fun h => ⟨h.left, h.right.right⟩

/-- The watermark moves only to a success of the outcomes. -/
theorem advanceSuccessWatermark_cases (prior : Option (CompletionPosition Time Uuid))
    (outcomes : List (TriggerOutcome Time Uuid)) :
    advanceSuccessWatermark prior outcomes = prior ∨
      exists outcome, outcome ∈ outcomes ∧ outcome.countsAsFailure = false ∧
        advanceSuccessWatermark prior outcomes = some outcome.position := by
  induction outcomes generalizing prior with
  | nil => exact Or.inl rfl
  | cons outcome rest ih =>
      rw [advanceSuccessWatermark, List.foldl_cons]
      change advanceSuccessWatermark _ rest = _ ∨ exists other, _ ∧ _ ∧
        advanceSuccessWatermark _ rest = _
      rcases ih _ with hsame | ⟨other, hother, hcounts, hposition⟩
      · rw [hsame]
        cases hcounts : outcome.countsAsFailure with
        | true => exact Or.inl rfl
        | false =>
            have hself : exists other, other ∈ outcome :: rest ∧ other.countsAsFailure = false ∧
                some outcome.position = some other.position :=
              ⟨outcome, List.mem_cons_self .., hcounts, rfl⟩
            cases prior with
            | none => exact Or.inr hself
            | some latest =>
                simp only [Bool.false_eq_true, if_false]
                split
                · exact Or.inr hself
                · exact Or.inl rfl
      · exact Or.inr ⟨other, List.mem_cons_of_mem _ hother, hcounts, hposition⟩

structure IsGreatestSuccess (prior : Option (CompletionPosition Time Uuid))
    (outcomes : List (TriggerOutcome Time Uuid))
    (success : Option (CompletionPosition Time Uuid)) : Prop where
  prior_le : level prior ≤ level success
  outcome_le : forall outcome, outcome ∈ outcomes -> outcome.countsAsFailure = false ->
    (outcome.key : WithBot (Time ×ₗ Uuid)) ≤ level success
  attained : success = prior ∨ exists outcome, outcome ∈ outcomes ∧
    outcome.countsAsFailure = false ∧ success = some outcome.position

theorem isGreatestSuccess_advanceSuccessWatermark
    (prior : Option (CompletionPosition Time Uuid))
    (outcomes : List (TriggerOutcome Time Uuid)) :
    IsGreatestSuccess prior outcomes (advanceSuccessWatermark prior outcomes) := by
  have hle := level_advanceSuccessWatermark_le_iff.mp
    (le_refl (level (advanceSuccessWatermark prior outcomes)))
  exact
    { prior_le := hle.left
      outcome_le := hle.right
      attained := advanceSuccessWatermark_cases prior outcomes }

theorem IsGreatestSuccess.level_le {prior success : Option (CompletionPosition Time Uuid)}
    {outcomes : List (TriggerOutcome Time Uuid)} (h : IsGreatestSuccess prior outcomes success)
    {bound : WithBot (Time ×ₗ Uuid)} (hprior : level prior ≤ bound)
    (houtcomes : forall outcome, outcome ∈ outcomes -> outcome.countsAsFailure = false ->
      (outcome.key : WithBot (Time ×ₗ Uuid)) ≤ bound) : level success ≤ bound := by
  rcases h.attained with hsame | ⟨outcome, hmem, hcounts, hposition⟩
  · rw [hsame]
    exact hprior
  · rw [hposition]
    exact houtcomes outcome hmem hcounts

end

end Triggers
end Pertexo
