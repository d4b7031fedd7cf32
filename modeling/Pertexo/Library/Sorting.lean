import Mathlib.Data.List.Sort

/-!
# Stable sorting by a comparison function

The comparison returns an ordering, as a comparator of a sort call does. The
sort is stable: elements that compare equal keep their order.
-/

namespace Pertexo
namespace Library

def sortWith (compare : α -> α -> Ordering) (items : List α) : List α :=
  items.insertionSort fun left right => (compare left right).isLE = true

theorem perm_sortWith (compare : α -> α -> Ordering) (items : List α) :
    (sortWith compare items).Perm items :=
  List.perm_insertionSort _ items

@[simp] theorem mem_sortWith {compare : α -> α -> Ordering} {items : List α} {a : α} :
    a ∈ sortWith compare items ↔ a ∈ items :=
  (perm_sortWith compare items).mem_iff

theorem pairwise_sortWith {compare : α -> α -> Ordering}
    (htotal : forall left right, (compare left right).isLE = true ∨
      (compare right left).isLE = true)
    (htrans : forall first second third, (compare first second).isLE = true ->
      (compare second third).isLE = true -> (compare first third).isLE = true)
    (items : List α) :
    (sortWith compare items).Pairwise fun left right => (compare left right).isLE = true := by
  have : Std.Total fun left right => (compare left right).isLE = true := ⟨htotal⟩
  have : IsTrans α fun left right => (compare left right).isLE = true := ⟨htrans⟩
  exact List.pairwise_insertionSort _ items

/-!
## Sorts that change nothing

A sort by a total comparison leaves sorted elements alone, and gives the same
list whatever the order of the elements, as far as the comparison tells them
apart.
-/

structure ComparesTotally (compare : α -> α -> Ordering) : Prop where
  total : forall left right, (compare left right).isLE = true ∨ (compare right left).isLE = true
  trans : forall first second third, (compare first second).isLE = true ->
    (compare second third).isLE = true -> (compare first third).isLE = true

theorem ComparesTotally.comap {compare : β -> β -> Ordering} (h : ComparesTotally compare)
    (key : α -> β) : ComparesTotally fun left right => compare (key left) (key right) where
  total := fun left right => h.total (key left) (key right)
  trans := fun first second third => h.trans (key first) (key second) (key third)

variable {compare : α -> α -> Ordering}

theorem ComparesTotally.pairwise_sortWith (h : ComparesTotally compare) (items : List α) :
    (sortWith compare items).Pairwise fun left right => (compare left right).isLE = true :=
  Library.pairwise_sortWith h.total h.trans items

theorem sortWith_of_pairwise {items : List α}
    (h : items.Pairwise fun left right => (compare left right).isLE = true) :
    sortWith compare items = items :=
  h.insertionSort_eq

@[simp] theorem ComparesTotally.sortWith_sortWith (h : ComparesTotally compare)
    (items : List α) : sortWith compare (sortWith compare items) = sortWith compare items :=
  sortWith_of_pairwise (h.pairwise_sortWith items)

theorem map_sortWith {compareImages : β -> β -> Ordering} {f : α -> β} {items : List α}
    (h : forall left, left ∈ items -> forall right, right ∈ items ->
      compareImages (f left) (f right) = compare left right) :
    (sortWith compare items).map f = sortWith compareImages (items.map f) := by
  apply List.map_insertionSort
  intro left hleft right hright
  rw [h left hleft right hright]

theorem ComparesTotally.sortWith_eq_of_perm (h : ComparesTotally compare) {items others : List α}
    (hperm : items.Perm others)
    (hsame : forall left, left ∈ items -> forall right, right ∈ items ->
      (compare left right).isLE = true -> (compare right left).isLE = true -> left = right) :
    sortWith compare items = sortWith compare others := by
  have hsorted := (perm_sortWith compare items).trans
    (hperm.trans (perm_sortWith compare others).symm)
  apply hsorted.eq_of_pairwise _ (h.pairwise_sortWith items) (h.pairwise_sortWith others)
  intro left right hleft hright
  rw [mem_sortWith] at hleft hright
  exact hsame left hleft right (hperm.mem_iff.mpr hright)

end Library
end Pertexo
