import Mathlib.Data.List.Perm.Basic
import Mathlib.Algebra.BigOperators.Group.List.Basic
import Pertexo.Preflight.StructuralSchema

/-!
# Values with the same keys and values

At every depth the members of two objects have the same keys with the same values, in
whatever order they stand.
-/

namespace Pertexo
namespace Preflight

open Canonical
open Library
open Portability
open Values

section

variable {Number : Type}

mutual

inductive Same : GraphValue Number -> GraphValue Number -> Prop where
  | refl (value : GraphValue Number) : Same value value
  | array {items others : List (GraphValue Number)} (hitems : SameInPlace items others) :
      Same (.array items) (.array others)
  | object {members reordered others : GraphMembers Number} (horder : reordered.Perm members)
      (hmembers : SameUnderKeys members others) : Same (.object reordered) (.object others)

inductive SameInPlace : List (GraphValue Number) -> List (GraphValue Number) -> Prop where
  | nil : SameInPlace [] []
  | cons {item other : GraphValue Number} {rest others : List (GraphValue Number)}
      (hitem : Same item other) (hrest : SameInPlace rest others) :
      SameInPlace (item :: rest) (other :: others)

inductive SameUnderKeys : GraphMembers Number -> GraphMembers Number -> Prop where
  | nil : SameUnderKeys [] []
  | cons {key : ScriptString} {value other : GraphValue Number} {rest others : GraphMembers Number}
      (hvalue : Same value other) (hrest : SameUnderKeys rest others) :
      SameUnderKeys ((key, value) :: rest) ((key, other) :: others)

end

theorem sameItems_of_forall₂ {items others : List (GraphValue Number)}
    (h : List.Forall₂ Same items others) : SameInPlace items others := by
  induction h with
  | nil => exact SameInPlace.nil
  | cons hitem _ ih => exact SameInPlace.cons hitem ih

theorem sameMembers_of_forall₂ {members others : GraphMembers Number}
    (h : List.Forall₂ (fun member other => member.fst = other.fst ∧ Same member.snd other.snd)
      members others) : SameUnderKeys members others := by
  induction h with
  | nil => exact SameUnderKeys.nil
  | @cons member other rest others hboth _ ih =>
      rcases member with ⟨key, value⟩
      rcases other with ⟨otherKey, otherValue⟩
      rcases hboth with ⟨hkey, hvalue⟩
      dsimp only at hkey hvalue
      subst hkey
      exact SameUnderKeys.cons hvalue ih

/-!
## Counting members

Values that are the same have equally many members.
-/

mutual

def memberTotal : GraphValue Number -> Nat
  | .array items => itemsTotal items
  | .object members => membersTotal members
  | .null => 0
  | .bool _ => 0
  | .number _ => 0
  | .string _ => 0

def itemsTotal : List (GraphValue Number) -> Nat
  | [] => 0
  | item :: rest => memberTotal item + itemsTotal rest

def membersTotal : GraphMembers Number -> Nat
  | [] => 0
  | (_, value) :: rest => memberTotal value + 1 + membersTotal rest

end

theorem membersTotal_eq_sum (members : GraphMembers Number) :
    membersTotal members = (members.map fun member => memberTotal member.snd + 1).sum := by
  induction members with
  | nil => rfl
  | cons member rest ih =>
      rw [membersTotal, ih]
      rfl

mutual

theorem Same.memberTotal_eq {value other : GraphValue Number} (h : Same value other) :
    memberTotal value = memberTotal other := by
  cases h with
  | refl => rfl
  | array hitems =>
      rw [memberTotal, memberTotal]
      exact hitems.total_eq
  | object horder hmembers =>
      rw [memberTotal, memberTotal, membersTotal_eq_sum, (horder.map _).sum_eq,
        ← membersTotal_eq_sum]
      exact hmembers.total_eq

theorem SameInPlace.total_eq {items others : List (GraphValue Number)}
    (h : SameInPlace items others) :
    itemsTotal items = itemsTotal others := by
  cases h with
  | nil => rfl
  | cons hitem hrest => rw [itemsTotal, itemsTotal, hitem.memberTotal_eq, hrest.total_eq]

theorem SameUnderKeys.total_eq {members others : GraphMembers Number}
    (h : SameUnderKeys members others) : membersTotal members = membersTotal others := by
  cases h with
  | nil => rfl
  | cons hvalue hrest => rw [membersTotal, membersTotal, hvalue.memberTotal_eq, hrest.total_eq]

end

/-!
## JSON values

What is escaped, copied and restored is what it was.
-/

theorem renameJsonItems_eq (rename : ScriptString -> ScriptString)
    (items : List (GraphValue Number)) :
    renameJsonItems rename items = items.map (renameJsonKeys rename) := by
  induction items with
  | nil => rfl
  | cons item rest ih =>
      rw [renameJsonItems, ih]
      rfl

theorem renameJsonMembers_eq (rename : ScriptString -> ScriptString)
    (members : GraphMembers Number) :
    renameJsonMembers rename members =
      members.map fun member => (rename member.fst, renameJsonKeys rename member.snd) := by
  induction members with
  | nil => rfl
  | cons member rest ih =>
      rw [renameJsonMembers, ih]
      rfl

theorem copyItems_eq (items : List (GraphValue Number)) :
    copyItems items = items.map copyValue := by
  induction items with
  | nil => rfl
  | cons item rest ih =>
      rw [copyItems, ih]
      rfl

theorem copyMembers_eq (members : GraphMembers Number) :
    copyMembers members = (members.filter fun member => keepsKey member.fst).map fun member =>
      (member.fst, copyValue member.snd) := by
  induction members with
  | nil => rfl
  | cons member rest ih =>
      rcases member with ⟨key, value⟩
      rw [copyMembers, List.filter_cons, keepsKey]
      by_cases hproto : key == protoKey
      · rw [if_pos hproto, hproto]
        exact ih
      · rw [if_neg hproto, Bool.not_eq_true _ |>.mp hproto, ih]
        rfl

theorem keepsKey_escapeKey (key : ScriptString) : keepsKey (escapeKey key) = true := by
  rw [keepsKey, escapeKey_ne_protoKey]
  rfl

theorem restore_copy_escape_json (value : GraphValue Number) :
    value.Ordered -> restoreJsonValueKeys (copyValue (escapeJsonValueKeys value)) = value := by
  induction value using value_induction with
  | hscalar value hitems hmembers =>
      intro _
      cases value with
      | array items => exact absurd rfl (hitems items)
      | object members => exact absurd rfl (hmembers members)
      | null => rfl
      | bool value => rfl
      | number value => rfl
      | string text => rfl
  | harray items ih =>
      intro hordered
      have heach := orderedItems_iff.mp hordered
      rw [escapeJsonValueKeys, renameJsonKeys, copyValue, restoreJsonValueKeys, renameJsonKeys,
        renameJsonItems_eq, renameJsonItems_eq, copyItems_eq, List.map_map, List.map_map]
      congr 1
      calc items.map _ = items.map id :=
            List.map_congr_left fun item hitem => ih item hitem (heach item hitem)
        _ = items := List.map_id items
  | hobject members ih =>
      rintro ⟨horder, hordered⟩
      have heach := orderedMembers_iff.mp hordered
      have hescaped := @ownOrder_escape _ _ members
        (fun member => renameJsonKeys escapeKey member.snd) horder
      rw [escapeJsonValueKeys, renameJsonKeys, renameJsonMembers_eq,
        buildObject_of_ownOrder hescaped, copyValue, copyMembers_eq, List.filter_eq_self.mpr (by
          intro member hmember
          rcases List.mem_map.mp hmember with ⟨_, _, rfl⟩
          exact keepsKey_escapeKey _), restoreJsonValueKeys, renameJsonKeys, renameJsonMembers_eq,
        List.map_map, List.map_map]
      have hsame : (members.map fun member => (restoreKey (escapeKey member.fst),
          renameJsonKeys restoreKey (copyValue (renameJsonKeys escapeKey member.snd)))) =
            members := by
        calc members.map _ = members.map id := List.map_congr_left fun member hmember => by
              rw [restoreKey_escapeKey]
              exact congrArg (Prod.mk member.fst) (ih member hmember (heach member hmember))
          _ = members := List.map_id members
      show BoundedJsonValue.object (buildObject (members.map fun member =>
        (restoreKey (escapeKey member.fst),
          renameJsonKeys restoreKey (copyValue (renameJsonKeys escapeKey member.snd))))) = _
      rw [hsame, buildObject_of_ownOrder horder]

end

end Preflight
end Pertexo
