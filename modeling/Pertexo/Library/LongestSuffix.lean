import Mathlib.Data.List.Infix
import Mathlib.Data.Set.Basic
import Mathlib.Order.Bounds.Basic

/-!
# Longest suffixes

## The longest suffix in a set
-/

namespace Pertexo
namespace Library

structure IsLongestSuffix (T : Set (List α)) (word found : List α) : Prop where
  mem : found ∈ T
  suffix : found <:+ word
  longest : forall other, other ∈ T -> other <:+ word -> other <:+ found

section

variable {T S : Set (List α)} {word found : List α}

theorem IsLongestSuffix.self (h : word ∈ T) : IsLongestSuffix T word word :=
  ⟨h, List.suffix_refl word, fun _ _ hother => hother⟩

/-- A word of a smaller set is looked for in the longest suffix of the larger one. -/
theorem IsLongestSuffix.trans {inner : List α} (h : IsLongestSuffix T word found)
    (hinner : IsLongestSuffix S found inner) (hsubset : S ⊆ T) :
    IsLongestSuffix S word inner where
  mem := hinner.mem
  suffix := hinner.suffix.trans h.suffix
  longest := by
    intro other hother hsuffix
    exact hinner.longest other hother (h.longest other (hsubset hother) hsuffix)

theorem IsLongestSuffix.of_tail {first : α} {rest : List α} (h : IsLongestSuffix T rest found)
    (hout : first :: rest ∉ T) : IsLongestSuffix T (first :: rest) found where
  mem := h.mem
  suffix := h.suffix.trans (List.suffix_cons first rest)
  longest := by
    intro other hother hsuffix
    rcases List.suffix_cons_iff.mp hsuffix with rfl | hrest
    · exact absurd hother hout
    · exact h.longest other hother hrest

theorem IsLongestSuffix.concat {a : α}
    (h : IsLongestSuffix { state | state ++ [a] ∈ T } word found) :
    IsLongestSuffix T (word ++ [a]) (found ++ [a]) where
  mem := h.mem
  suffix := List.suffix_concat_iff.mpr (Or.inr ⟨found, rfl, h.suffix⟩)
  longest := by
    intro other hother hsuffix
    rcases List.suffix_concat_iff.mp hsuffix with rfl | ⟨front, rfl, hfront⟩
    · exact List.nil_suffix
    · exact List.suffix_concat_iff.mpr (Or.inr ⟨front, rfl, h.longest front hother hfront⟩)

theorem isLongestSuffix_nil {a : α} (hnil : [] ∈ T)
    (h : forall state, state <:+ word -> state ++ [a] ∉ T) :
    IsLongestSuffix T (word ++ [a]) [] where
  mem := hnil
  suffix := List.nil_suffix
  longest := by
    intro other hother hsuffix
    rcases List.suffix_concat_iff.mp hsuffix with rfl | ⟨front, rfl, hfront⟩
    · exact List.nil_suffix
    · exact absurd hother (h front hfront)

end

/-!
## Fallbacks

A state is a word of the set. Its fallback is the longest other suffix of it in
the set, so that following the fallbacks meets every suffix in the set.
-/

def followFallbacks (fallback : List α -> List α) (hasEdge : List α -> Bool) :
    Nat -> List α -> List α
  | 0, state => state
  | fuel + 1, state =>
      if state.isEmpty || hasEdge state then state
      else followFallbacks fallback hasEdge fuel (fallback state)

/-- The state after a letter: from the first fallback with an edge, or from the start again. -/
def advanceState [DecidableEq α] (fallback : List α -> List α) (edges : List α -> List α)
    (state : List α) (a : α) : List α :=
  let found :=
    followFallbacks fallback (fun state => (edges state).contains a) state.length state
  if (edges found).contains a then found ++ [a] else []

/-- The fallbacks of the states of at most a given length. -/
def HasFallbacks (T : Set (List α)) (fallback : List α -> List α) (bound : Nat) : Prop :=
  forall first rest, first :: rest ∈ T -> rest.length < bound ->
    IsLongestSuffix T rest (fallback (first :: rest))

section

variable {T : Set (List α)} {fallback : List α -> List α} {bound : Nat}

theorem followFallbacks_spec (hasEdge : List α -> Bool) (hfallback : HasFallbacks T fallback bound)
    {fuel : Nat} {state : List α} (hfuel : state.length ≤ fuel) (hbound : state.length ≤ bound)
    (hstate : state ∈ T) :
    (hasEdge (followFallbacks fallback hasEdge fuel state) = true ∧
        IsLongestSuffix { other | other ∈ T ∧ hasEdge other = true } state
          (followFallbacks fallback hasEdge fuel state)) ∨
      (hasEdge (followFallbacks fallback hasEdge fuel state) = false ∧
        forall other, other ∈ T -> other <:+ state -> hasEdge other = false) := by
  induction fuel generalizing state with
  | zero =>
      rw [List.length_eq_zero_iff.mp (Nat.le_zero.mp hfuel)] at hstate ⊢
      show (hasEdge [] = true ∧ IsLongestSuffix _ [] []) ∨ (hasEdge [] = false ∧ _)
      cases hedge : hasEdge [] with
      | true => exact Or.inl ⟨rfl, IsLongestSuffix.self ⟨hstate, hedge⟩⟩
      | false =>
          refine Or.inr ⟨rfl, ?_⟩
          intro other _ hsuffix
          rw [List.suffix_nil.mp hsuffix]
          exact hedge
  | succ fuel ih =>
      cases hedge : hasEdge state with
      | true =>
          have hstays : followFallbacks fallback hasEdge (fuel + 1) state = state := by
            rw [followFallbacks, hedge, Bool.or_true, if_pos rfl]
          rw [hstays]
          exact Or.inl ⟨hedge, IsLongestSuffix.self ⟨hstate, hedge⟩⟩
      | false =>
          cases state with
          | nil =>
              refine Or.inr ⟨hedge, ?_⟩
              intro other _ hsuffix
              rw [List.suffix_nil.mp hsuffix]
              exact hedge
          | cons first rest =>
              have hnext := hfallback first rest hstate hbound
              have hlength := hnext.suffix.length_le
              have hfalls : followFallbacks fallback hasEdge (fuel + 1) (first :: rest) =
                  followFallbacks fallback hasEdge fuel (fallback (first :: rest)) := by
                rw [followFallbacks, hedge, if_neg (by simp)]
              have hout : first :: rest ∉ { other | other ∈ T ∧ hasEdge other = true } := by
                rintro ⟨_, htrue⟩
                rw [hedge] at htrue
                cases htrue
              have hshorter := Nat.le_of_succ_le_succ hfuel
              rw [hfalls]
              rcases ih (hlength.trans hshorter) (hlength.trans (Nat.le_of_lt hbound)) hnext.mem
                with ⟨hfound, hlongest⟩ | ⟨hfound, hnone⟩
              · refine Or.inl ⟨hfound, IsLongestSuffix.of_tail ?_ hout⟩
                exact hnext.trans hlongest fun _ hother => hother.left
              · refine Or.inr ⟨hfound, ?_⟩
                intro other hother hsuffix
                rcases List.suffix_cons_iff.mp hsuffix with rfl | hrest
                · exact hedge
                · exact hnone other hother (hnext.longest other hother hrest)

structure HasEdges (T : Set (List α)) (edges : List α -> List α) : Prop where
  nil : [] ∈ T
  mem_edges : forall state a, a ∈ edges state ↔ state ++ [a] ∈ T
  closed : forall state a, state ++ [a] ∈ T -> state ∈ T

/-- The state after a word is the longest suffix of it. -/
theorem advanceState_spec [DecidableEq α] {edges : List α -> List α} (hedges : HasEdges T edges)
    (hfallback : HasFallbacks T fallback bound) {word state : List α}
    (h : IsLongestSuffix T word state) (hbound : state.length ≤ bound) (a : α) :
    IsLongestSuffix T (word ++ [a]) (advanceState fallback edges state a) := by
  have hiff : forall other, (edges other).contains a = true ↔ other ++ [a] ∈ T := by
    intro other
    rw [List.contains_iff_mem]
    exact hedges.mem_edges other a
  unfold advanceState
  dsimp only
  have hfollows := followFallbacks_spec (fun state => (edges state).contains a) hfallback
    (Nat.le_refl _) hbound h.mem
  rcases hfollows with ⟨hfound, hlongest⟩ | ⟨hfound, hnone⟩
  · rw [if_pos hfound]
    have hset : { other | other ∈ T ∧ (edges other).contains a = true } =
        { other | other ++ [a] ∈ T } := by
      ext other
      constructor
      · exact fun hother => (hiff other).mp hother.right
      · exact fun hother => ⟨hedges.closed other a hother, (hiff other).mpr hother⟩
    rw [hset] at hlongest
    exact (h.trans hlongest fun other hother => hedges.closed other a hother).concat
  · rw [if_neg (by rw [hfound]; simp)]
    refine isLongestSuffix_nil hedges.nil ?_
    intro other hsuffix hother
    have hmem := hedges.closed other a hother
    have hedge := hnone other hmem (h.longest other hmem hsuffix)
    rw [(hiff other).mpr hother] at hedge
    cases hedge

end

/-!
## Longest patterns
-/

/-- The length of the longest pattern at the end of a word; zero when there is none. -/
def IsLongestPattern (patterns : Set (List α)) (word : List α) (length : Nat) : Prop :=
  IsGreatest { n | n = 0 ∨ exists pattern, pattern ∈ patterns ∧ pattern <:+ word ∧
    pattern.length = n } length

section

variable {T patterns : Set (List α)} {word found : List α} {length : Nat}

theorem isLongestPattern_nil : IsLongestPattern patterns [] 0 := by
  constructor
  · exact Or.inl rfl
  · rintro n (rfl | ⟨pattern, _, hsuffix, rfl⟩)
    · exact Nat.le_refl 0
    · rw [List.suffix_nil.mp hsuffix]
      exact Nat.le_refl 0

/-- The patterns at the end of a word are at the end of its longest suffix among the states. -/
theorem IsLongestPattern.of_suffix (h : IsLongestPattern patterns found length)
    (hfound : IsLongestSuffix T word found) (hpatterns : patterns ⊆ T) :
    IsLongestPattern patterns word length := by
  constructor
  · rcases h.left with hzero | ⟨pattern, hmem, hsuffix, hlength⟩
    · exact Or.inl hzero
    · exact Or.inr ⟨pattern, hmem, hsuffix.trans hfound.suffix, hlength⟩
  · rintro n (rfl | ⟨pattern, hmem, hsuffix, rfl⟩)
    · exact Nat.zero_le _
    · exact h.right (Or.inr
        ⟨pattern, hmem, hfound.longest pattern (hpatterns hmem) hsuffix, rfl⟩)

theorem IsLongestPattern.of_fallback {first : α} {rest : List α} {own : Nat}
    (h : IsLongestPattern patterns found length) (hfound : IsLongestSuffix T rest found)
    (hpatterns : patterns ⊆ T)
    (hown : (first :: rest ∈ patterns ∧ own = (first :: rest).length) ∨
      (first :: rest ∉ patterns ∧ own = 0)) :
    IsLongestPattern patterns (first :: rest) (max own length) := by
  have hrest := h.of_suffix hfound hpatterns
  constructor
  · rcases Nat.le_total own length with hle | hle
    · rw [max_eq_right hle]
      rcases hrest.left with hzero | ⟨pattern, hmem, hsuffix, hlength⟩
      · exact Or.inl hzero
      · exact Or.inr ⟨pattern, hmem, hsuffix.trans (List.suffix_cons first rest), hlength⟩
    · rw [max_eq_left hle]
      rcases hown with ⟨hmem, rfl⟩ | ⟨_, hzero⟩
      · exact Or.inr ⟨_, hmem, List.suffix_refl _, rfl⟩
      · exact Or.inl hzero
  · rintro n (rfl | ⟨pattern, hmem, hsuffix, rfl⟩)
    · exact Nat.zero_le _
    · rcases List.suffix_cons_iff.mp hsuffix with rfl | hshorter
      · rcases hown with ⟨_, rfl⟩ | ⟨hout, _⟩
        · exact le_max_left _ _
        · exact absurd hmem hout
      · exact (hrest.right (Or.inr ⟨pattern, hmem, hshorter, rfl⟩)).trans (le_max_right _ _)

theorem IsLongestPattern.eq {other : Nat} (h : IsLongestPattern patterns word length)
    (h' : IsLongestPattern patterns word other) : length = other :=
  h.unique h'

end

end Library
end Pertexo
