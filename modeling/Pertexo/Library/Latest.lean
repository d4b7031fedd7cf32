import Mathlib.Data.Finset.Max
import Mathlib.Data.List.Basic

/-!
# The latest items of a pool

## Pools

The latest `n` items of a pool are those with fewer than `n` items above them in
the order of their keys. Dropping the other items early loses nothing: they are
not among the latest of any larger pool.
-/

namespace Pertexo
namespace Library

section

variable {α : Type u} {κ : Type v} [LinearOrder κ] (key : α -> κ)

def above (pool : Finset α) (item : α) : Finset α :=
  pool.filter fun other => key item < key other

def latestOf (n : Nat) (pool : Finset α) : Finset α :=
  pool.filter fun item => (above key pool item).card < n

variable {key} {n : Nat} {pool added : Finset α} {item : α}

theorem mem_latestOf : item ∈ latestOf key n pool ↔ item ∈ pool ∧ (above key pool item).card < n :=
  Finset.mem_filter

theorem above_subset_above (h : added ⊆ pool) : above key added item ⊆ above key pool item :=
  Finset.filter_subset_filter _ h

variable [DecidableEq α]

/-- An item with `n` items above it has `n` of the latest items above it. -/
theorem le_card_above_latestOf (h : n ≤ (above key pool item).card) :
    n ≤ (above key (latestOf key n pool) item).card := by
  by_cases hall : above key pool item ⊆ latestOf key n pool
  · have hsame : above key pool item ⊆ above key (latestOf key n pool) item := by
      intro other hother
      exact Finset.mem_filter.mpr ⟨hall hother, (Finset.mem_filter.mp hother).right⟩
    exact h.trans (Finset.card_le_card hsame)
  · -- The highest item that is not among the latest has `n` items above it, all among the latest.
    have hne : (above key pool item \ latestOf key n pool).Nonempty :=
      Finset.sdiff_nonempty.mpr hall
    rcases Finset.exists_max_image _ key hne with ⟨highest, hmem, hmax⟩
    rcases Finset.mem_sdiff.mp hmem with ⟨habove, hnot⟩
    rcases Finset.mem_filter.mp habove with ⟨hpool, hitem⟩
    have hcard : n ≤ (above key pool highest).card := by
      by_contra hlt
      exact hnot (mem_latestOf.mpr ⟨hpool, Nat.lt_of_not_le hlt⟩)
    apply hcard.trans
    apply Finset.card_le_card
    intro other hother
    rcases Finset.mem_filter.mp hother with ⟨hother, hhigher⟩
    have hover := hitem.trans hhigher
    apply Finset.mem_filter.mpr
    constructor
    · by_contra hmissing
      have hcandidate : other ∈ above key pool item \ latestOf key n pool :=
        Finset.mem_sdiff.mpr ⟨Finset.mem_filter.mpr ⟨hother, hover⟩, hmissing⟩
      exact absurd hhigher (not_lt_of_ge (hmax other hcandidate))
    · exact hover

theorem latestOf_latestOf_union :
    latestOf key n (latestOf key n pool ∪ added) = latestOf key n (pool ∪ added) := by
  have hsub : latestOf key n pool ∪ added ⊆ pool ∪ added :=
    Finset.union_subset_union_left (Finset.filter_subset _ _)
  ext item
  rw [mem_latestOf, mem_latestOf]
  constructor
  · intro h
    constructor
    · exact hsub h.left
    · by_contra hmany
      -- Were there too many items above, one of them would have been dropped for `n` others.
      apply absurd h.right
      apply Nat.not_lt.mpr
      by_cases hdropped : above key (pool ∪ added) item ⊆ latestOf key n pool ∪ added
      · apply (Nat.le_of_not_lt hmany).trans
        apply Finset.card_le_card
        intro other hother
        exact Finset.mem_filter.mpr ⟨hdropped hother, (Finset.mem_filter.mp hother).right⟩
      · rcases Finset.not_subset.mp hdropped with ⟨other, hother, hmissing⟩
        rcases Finset.mem_filter.mp hother with ⟨hunion, hhigher⟩
        rw [Finset.mem_union, not_or] at hmissing
        have hpool : other ∈ pool := by
          cases Finset.mem_union.mp hunion with
          | inl hpool => exact hpool
          | inr hadded => exact absurd hadded hmissing.right
        have hcard : n ≤ (above key pool other).card := by
          by_contra hlt
          exact hmissing.left (mem_latestOf.mpr ⟨hpool, Nat.lt_of_not_le hlt⟩)
        apply (le_card_above_latestOf hcard).trans
        apply Finset.card_le_card
        intro last hlast
        rcases Finset.mem_filter.mp hlast with ⟨hlatest, hlastHigher⟩
        apply Finset.mem_filter.mpr
        exact ⟨Finset.mem_union_left _ hlatest, hhigher.trans hlastHigher⟩
  · intro h
    have hcard : (above key (latestOf key n pool ∪ added) item).card < n :=
      (Finset.card_le_card (above_subset_above hsub)).trans_lt h.right
    constructor
    · cases Finset.mem_union.mp h.left with
      | inl hpool =>
          apply Finset.mem_union_left
          apply mem_latestOf.mpr
          exact ⟨hpool, (Finset.card_le_card
            (above_subset_above Finset.subset_union_left)).trans_lt h.right⟩
      | inr hadded => exact Finset.mem_union_right _ hadded
    · exact hcard

omit [DecidableEq α] in
theorem latestOf_filter {p : α -> Prop} [DecidablePred p]
    (hupper : forall low high, p low -> key low < key high -> p high) :
    latestOf key n (pool.filter p) = (latestOf key n pool).filter p := by
  have habove : forall item, p item -> above key (pool.filter p) item = above key pool item := by
    intro item hitem
    ext other
    simp only [above, Finset.mem_filter]
    constructor
    · exact fun h => ⟨h.left.left, h.right⟩
    · exact fun h => ⟨⟨h.left, hupper item other hitem h.right⟩, h.right⟩
  ext item
  rw [mem_latestOf, Finset.mem_filter, Finset.mem_filter, mem_latestOf]
  constructor
  · intro h
    rw [habove item h.left.right] at h
    exact ⟨⟨h.left.left, h.right⟩, h.left.right⟩
  · intro h
    rw [habove item h.right]
    exact ⟨⟨h.left.left, h.right⟩, h.left.right⟩

end

/-!
## Lists

The last `n` items of a list that is sorted by key are the latest of its items.
-/

section

variable {α : Type u} {n : Nat}

def lastItems (n : Nat) (items : List α) : List α :=
  items.drop (items.length - n)

theorem lastItems_cons_of_lt {item : α} {rest : List α} (h : rest.length < n) :
    lastItems n (item :: rest) = item :: rest := by
  rw [lastItems, List.length_cons, Nat.sub_eq_zero_of_le h, List.drop_zero]

theorem lastItems_cons_of_le {item : α} {rest : List α} (h : n ≤ rest.length) :
    lastItems n (item :: rest) = lastItems n rest := by
  rw [lastItems, lastItems, List.length_cons, Nat.succ_sub h, List.drop_succ_cons]

theorem lastItems_of_le {items : List α} (h : items.length ≤ n) : lastItems n items = items := by
  rw [lastItems, Nat.sub_eq_zero_of_le h, List.drop_zero]

@[simp] theorem length_lastItems (items : List α) :
    (lastItems n items).length = min n items.length := by
  rw [lastItems, List.length_drop]
  omega

variable {κ : Type v} [LinearOrder κ] {key : α -> κ}

theorem nodup_of_pairwise_lt {items : List α}
    (h : items.Pairwise fun left right => key left < key right) : items.Nodup := by
  apply h.imp
  intro left right hlt heq
  rw [heq] at hlt
  exact lt_irrefl _ hlt

theorem eq_of_pairwise_lt [DecidableEq α] {left right : List α}
    (hleft : left.Pairwise fun one other => key one < key other)
    (hright : right.Pairwise fun one other => key one < key other)
    (h : left.toFinset = right.toFinset) : left = right := by
  apply List.Perm.eq_of_pairwise _ hleft hright
  · exact List.perm_of_nodup_nodup_toFinset_eq (nodup_of_pairwise_lt hleft)
      (nodup_of_pairwise_lt hright) h
  · intro one other _ _ hbefore hafter
    exact absurd hbefore hafter.not_gt

theorem pairwise_lastItems {R : α -> α -> Prop} {items : List α} (h : items.Pairwise R) :
    (lastItems n items).Pairwise R :=
  h.sublist (List.drop_sublist _ _)

theorem toFinset_lastItems [DecidableEq α] {items : List α}
    (h : items.Pairwise fun left right => key left < key right) :
    (lastItems n items).toFinset = latestOf key n items.toFinset := by
  induction items with
  | nil =>
      rw [lastItems, latestOf, List.drop_nil, List.toFinset_nil, Finset.filter_empty]
  | cons item rest ih =>
      rcases List.pairwise_cons.mp h with ⟨hfirst, hrest⟩
      have hnot : item ∉ rest := fun hmem => lt_irrefl _ (hfirst item hmem)
      have hnodup : rest.Nodup := nodup_of_pairwise_lt hrest
      have haboveItem : above key (item :: rest).toFinset item = rest.toFinset := by
        ext other
        simp only [above, Finset.mem_filter, List.mem_toFinset, List.mem_cons]
        constructor
        · intro hother
          cases hother.left with
          | inl heq => exact absurd hother.right (heq ▸ lt_irrefl _)
          | inr hmem => exact hmem
        · exact fun hmem => ⟨Or.inr hmem, hfirst other hmem⟩
      have hcardItem : (above key (item :: rest).toFinset item).card = rest.length := by
        rw [haboveItem, List.toFinset_card_of_nodup hnodup]
      have haboveRest : forall other, other ∈ rest ->
          above key (item :: rest).toFinset other = above key rest.toFinset other := by
        intro other hother
        ext last
        simp only [above, Finset.mem_filter, List.mem_toFinset, List.mem_cons]
        constructor
        · intro hlast
          cases hlast.left with
          | inl heq => exact absurd (hfirst other hother) (heq ▸ not_lt_of_gt hlast.right)
          | inr hmem => exact ⟨hmem, hlast.right⟩
        · exact fun hlast => ⟨Or.inr hlast.left, hlast.right⟩
      have hmemRest : forall other, other ∈ latestOf key n rest.toFinset ↔
          other ∈ rest ∧ (above key (item :: rest).toFinset other).card < n := by
        intro other
        rw [mem_latestOf, List.mem_toFinset]
        constructor
        · exact fun hother => ⟨hother.left, haboveRest other hother.left ▸ hother.right⟩
        · exact fun hother => ⟨hother.left, (haboveRest other hother.left).symm ▸ hother.right⟩
      ext other
      rw [mem_latestOf, List.mem_toFinset, List.mem_toFinset, List.mem_cons]
      by_cases hlength : rest.length < n
      · have hshort := lastItems_of_le hlength.le
        rw [lastItems_cons_of_lt hlength, List.mem_cons]
        rw [hshort] at ih
        constructor
        · intro hother
          cases hother with
          | inl heq => exact ⟨Or.inl heq, by rw [heq, hcardItem]; exact hlength⟩
          | inr hmem =>
              have hlatest : other ∈ latestOf key n rest.toFinset :=
                ih hrest ▸ List.mem_toFinset.mpr hmem
              exact ⟨Or.inr hmem, ((hmemRest other).mp hlatest).right⟩
        · exact fun hother => hother.left
      · rw [lastItems_cons_of_le (Nat.le_of_not_lt hlength), ← List.mem_toFinset, ih hrest,
          hmemRest]
        constructor
        · exact fun hother => ⟨Or.inr hother.left, hother.right⟩
        · intro hother
          cases hother.left with
          | inl heq => exact absurd (heq ▸ hother.right) (by rw [hcardItem]; exact hlength)
          | inr hmem => exact ⟨hmem, hother.right⟩

end

end Library
end Pertexo
