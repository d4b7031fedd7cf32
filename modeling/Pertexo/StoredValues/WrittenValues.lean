import Pertexo.Canonical.Completeness
import Pertexo.JsonBoundaries.WrittenText
import Pertexo.StoredValues.StoredExecution

/-!
# Written values

The serializer writes the text of the tree whose keys are arranged as it was asked to. The
sorted texts of two values are the same exactly when the values are the same up to the order
of their keys.

## Arranged trees
-/

namespace Pertexo
namespace StoredValues

open Canonical
open JsonBoundaries
open Library
open Pages
open Pagination
open Values

section

variable {Number : Type}

mutual

/-- The tree with the keys of its objects in the order in which they are written. -/
def arranged (sortKeys : Bool) : BoundedJsonValue Number -> BoundedJsonValue Number
  | .array items => .array (arrangedItems sortKeys items)
  | .object members => .object (orderedKeys sortKeys (arrangedMembers sortKeys members))
  | scalar => scalar

def arrangedItems (sortKeys : Bool) :
    List (BoundedJsonValue Number) -> List (BoundedJsonValue Number)
  | [] => []
  | item :: rest => arranged sortKeys item :: arrangedItems sortKeys rest

def arrangedMembers (sortKeys : Bool) : List (ScriptString × BoundedJsonValue Number) ->
    List (ScriptString × BoundedJsonValue Number)
  | [] => []
  | (key, value) :: rest => (key, arranged sortKeys value) :: arrangedMembers sortKeys rest

end

theorem arrangedMembers_eq_map (sortKeys : Bool)
    (members : List (ScriptString × BoundedJsonValue Number)) :
    arrangedMembers sortKeys members =
      members.map fun member => (member.fst, arranged sortKeys member.snd) := by
  induction members with
  | nil => rfl
  | cons member rest ih =>
      rcases member with ⟨key, value⟩
      rw [arrangedMembers, ih, List.map_cons]

theorem orderedKeys_map (sortKeys : Bool) (change : α -> β) (members : List (ScriptString × α)) :
    orderedKeys sortKeys (members.map fun member => (member.fst, change member.snd)) =
      (orderedKeys sortKeys members).map fun member => (member.fst, change member.snd) := by
  cases sortKeys with
  | false => rfl
  | true =>
      rw [orderedKeys, orderedKeys, if_pos rfl, if_pos rfl]
      symm
      apply map_sortWith
      intro left _ right _
      rfl

mutual

theorem arranged_false : forall value : BoundedJsonValue Number, arranged false value = value
  | .null => rfl
  | .bool _ => rfl
  | .number _ => rfl
  | .string _ => rfl
  | .array items => congrArg BoundedJsonValue.array (arrangedItems_false items)
  | .object members => congrArg BoundedJsonValue.object (arrangedMembers_false members)

theorem arrangedItems_false :
    forall items : List (BoundedJsonValue Number), arrangedItems false items = items
  | [] => rfl
  | item :: rest => by rw [arrangedItems, arranged_false item, arrangedItems_false rest]

theorem arrangedMembers_false :
    forall members : List (ScriptString × BoundedJsonValue Number),
      arrangedMembers false members = members
  | [] => rfl
  | (_, value) :: rest => by
      rw [arrangedMembers, arranged_false value, arrangedMembers_false rest]

end

/-!
## Sorted trees
-/

mutual

/-- A sorted tree is the canonical one before its keys are assigned to objects. -/
theorem rebuilt_arranged : forall value : BoundedJsonValue Number,
    rebuilt false (arranged true value) = rebuilt true value
  | .null => rfl
  | .bool _ => rfl
  | .number _ => rfl
  | .string _ => rfl
  | .array items => congrArg BoundedJsonValue.array (rebuiltItems_arrangedItems items)
  | .object members => by
      have hmembers := rebuiltMembers_arrangedMembers members
      rw [rebuiltMembers_eq_map] at hmembers
      rw [arranged, rebuilt_object, rebuilt_object, rebuiltMembers_eq_map, ← orderedKeys_map,
        hmembers]
      rfl

theorem rebuiltItems_arrangedItems : forall items : List (BoundedJsonValue Number),
    rebuiltItems false (arrangedItems true items) = rebuiltItems true items
  | [] => rfl
  | item :: rest => by
      rw [arrangedItems, rebuiltItems, rebuiltItems, rebuilt_arranged item,
        rebuiltItems_arrangedItems rest]

theorem rebuiltMembers_arrangedMembers :
    forall members : List (ScriptString × BoundedJsonValue Number),
      rebuiltMembers false (arrangedMembers true members) = rebuiltMembers true members
  | [] => rfl
  | (_, value) :: rest => by
      rw [arrangedMembers, rebuiltMembers, rebuiltMembers, rebuilt_arranged value,
        rebuiltMembers_arrangedMembers rest]

end

mutual

theorem arranged_rebuilt : forall value : BoundedJsonValue Number, value.Ordered ->
    arranged true (rebuilt true value) = arranged true value
  | .null, _ => rfl
  | .bool _, _ => rfl
  | .number _, _ => rfl
  | .string _, _ => rfl
  | .array items, h => congrArg BoundedJsonValue.array (arrangedItems_rebuiltItems items h)
  | .object members, h => by
      rcases perm_rebuilt_members true h.left with ⟨_, hperm⟩
      have hmembers := arrangedMembers_rebuiltMembers members h.right
      have hmap := hperm.map fun member : ScriptString × BoundedJsonValue Number =>
        (member.fst, arranged true member.snd)
      rw [← arrangedMembers_eq_map, ← arrangedMembers_eq_map, hmembers] at hmap
      rw [rebuilt_object, arranged, arranged, orderedKeys_eq_of_perm hmap]
      apply (hmap.map Prod.fst).nodup_iff.mpr
      rw [arrangedMembers_eq_map, List.map_map]
      exact nodup_of_ownOrder h.left

theorem arrangedItems_rebuiltItems : forall items : List (BoundedJsonValue Number),
    OrderedItems items -> arrangedItems true (rebuiltItems true items) = arrangedItems true items
  | [], _ => rfl
  | item :: rest, h => by
      rw [rebuiltItems, arrangedItems, arrangedItems, arranged_rebuilt item h.left,
        arrangedItems_rebuiltItems rest h.right]

theorem arrangedMembers_rebuiltMembers :
    forall members : List (ScriptString × BoundedJsonValue Number), OrderedMembers members ->
      arrangedMembers true (rebuiltMembers true members) = arrangedMembers true members
  | [], _ => rfl
  | (_, value) :: rest, h => by
      rw [rebuiltMembers, arrangedMembers, arrangedMembers, arranged_rebuilt value h.left,
        arrangedMembers_rebuiltMembers rest h.right]

end

/-- The order of the sorted trees is not the canonical one, but it tells the same values apart. -/
theorem arranged_eq_iff {left right : BoundedJsonValue Number} (hleft : left.Ordered)
    (hright : right.Ordered) :
    arranged true left = arranged true right ↔ SameUpToOrder left right := by
  rw [sameUpToOrder_iff left right hleft hright]
  constructor
  · intro h
    rw [← rebuilt_arranged left, ← rebuilt_arranged right, h]
  · intro h
    rw [← arranged_rebuilt left hleft, ← arranged_rebuilt right hright, h]

/-!
## The walk of the serializer
-/

variable [ScriptNumber Number]

theorem run_token (order : KeyOrder) (token : List Char) (rest : List (SerializeFrame Number))
    (chunks : List Char) :
    (serializeMachine Number order).run (.token token :: rest) chunks =
      (serializeMachine Number order).run rest (chunks ++ token) := by
  rw [StackMachine.run_cons, StackMachine.run_singleton]
  show (serializeMachine Number order).run [] (chunks ++ token) >>= _ = _
  rw [StackMachine.run_nil]
  rfl

/-- The walk writes the text of the arranged value behind what it has written. -/
def WritesArranged (order : KeyOrder) (value : BoundedJsonValue Number) : Prop :=
  forall chunks, (serializeMachine Number order).run [.value value] chunks =
    .ok (chunks ++ stringify (arranged (order == .canonical) value))

theorem writesArranged_scalar {order : KeyOrder} {value : BoundedJsonValue Number}
    (htake : forall chunks, serializeFrame order (.value value) chunks =
      .ok ([], chunks ++ stringify value))
    (hsame : arranged (order == .canonical) value = value) : WritesArranged order value := by
  intro chunks
  have hstep : (serializeMachine Number order).take (.value value) chunks =
      .ok ([], chunks ++ stringify value) := htake chunks
  rw [StackMachine.run_singleton, hstep, hsame]
  exact StackMachine.run_nil _

theorem run_itemTokens {order : KeyOrder} {items : List (BoundedJsonValue Number)}
    (h : forall item, item ∈ items -> WritesArranged order item) (chunks : List Char) :
    (serializeMachine Number order).run (itemTokens items) chunks =
      .ok (chunks ++ commaJoin (stringifyItems (arrangedItems (order == .canonical) items))) := by
  induction items generalizing chunks with
  | nil =>
      show (serializeMachine Number order).run [] chunks = .ok (chunks ++ [])
      rw [List.append_nil]
      exact StackMachine.run_nil _
  | cons item rest ih =>
      have hitem := h item List.mem_cons_self
      cases rest with
      | nil => exact hitem chunks
      | cons next rest =>
          have hrest := ih fun other hother => h other (List.mem_cons_of_mem _ hother)
          rw [itemTokens, StackMachine.run_cons, hitem chunks]
          show (serializeMachine Number order).run (.token [','] :: itemTokens (next :: rest)) _ = _
          rw [run_token, hrest, List.append_assoc, List.append_assoc]
          · rfl
          · intro hnone
            cases hnone

theorem run_memberTokens {order : KeyOrder}
    {members : List (ScriptString × BoundedJsonValue Number)}
    (h : forall member, member ∈ members -> WritesArranged order member.snd)
    (chunks : List Char) :
    (serializeMachine Number order).run (memberTokens members) chunks =
      .ok (chunks ++
        commaJoin (stringifyMembers (arrangedMembers (order == .canonical) members))) := by
  induction members generalizing chunks with
  | nil =>
      show (serializeMachine Number order).run [] chunks = .ok (chunks ++ [])
      rw [List.append_nil]
      exact StackMachine.run_nil _
  | cons member rest ih =>
      rcases member with ⟨key, value⟩
      have hvalue : WritesArranged order value := h (key, value) List.mem_cons_self
      cases rest with
      | nil =>
          rw [memberTokens, run_token, run_token, hvalue, List.append_assoc, List.append_assoc]
          rfl
      | cons next rest =>
          have hrest := ih fun other hother => h other (List.mem_cons_of_mem _ hother)
          rw [memberTokens, run_token, run_token, StackMachine.run_cons, hvalue]
          show (serializeMachine Number order).run
            (.token [','] :: memberTokens (next :: rest)) _ = _
          rcases next with ⟨nextKey, nextValue⟩
          rw [run_token, hrest, List.append_assoc, List.append_assoc, List.append_assoc,
            List.append_assoc]
          · show _ = Except.ok (chunks ++ ((quoteText key ++
              ':' :: stringify (arranged (order == .canonical) value)) ++ ',' :: commaJoin _))
            rw [List.append_assoc]
            rfl
          · intro hnone
            cases hnone

mutual

theorem writesArranged_value (order : KeyOrder) :
    forall value : BoundedJsonValue Number, WritesArranged order value
  | .null => writesArranged_scalar (fun _ => rfl) rfl
  | .bool _ => writesArranged_scalar (fun _ => rfl) rfl
  | .number _ => writesArranged_scalar (fun _ => rfl) rfl
  | .string _ => writesArranged_scalar (fun _ => rfl) rfl
  | .array items => by
      intro chunks
      rw [StackMachine.run_singleton]
      show (serializeMachine Number order).run
        (.token ['['] :: (itemTokens items ++ [.token [']']])) chunks = _
      rw [run_token, StackMachine.run_append, run_itemTokens (writesArranged_items order items)]
      show (serializeMachine Number order).run [.token [']']] _ = _
      rw [run_token, StackMachine.run_nil, arranged, stringify, List.append_assoc,
        List.append_assoc]
      rfl
  | .object members => by
      intro chunks
      have hmembers : forall member, member ∈ orderedKeys (order == .canonical) members ->
          WritesArranged order member.snd := fun member hmember =>
        writesArranged_members order members member
          ((perm_orderedKeys (order == .canonical) members).mem_iff.mp hmember)
      rw [StackMachine.run_singleton]
      show (serializeMachine Number order).run (.token ['\x7b'] ::
        (memberTokens (orderedKeys (order == .canonical) members) ++ [.token ['\x7d']])) chunks = _
      rw [run_token, StackMachine.run_append, run_memberTokens hmembers]
      show (serializeMachine Number order).run [.token ['\x7d']] _ = _
      rw [run_token, StackMachine.run_nil, arranged, stringify, arrangedMembers_eq_map,
        ← orderedKeys_map, ← arrangedMembers_eq_map, List.append_assoc, List.append_assoc]
      rfl

theorem writesArranged_items (order : KeyOrder) : forall (items : List (BoundedJsonValue Number))
    (item : BoundedJsonValue Number), item ∈ items -> WritesArranged order item
  | [], _, h => absurd h List.not_mem_nil
  | first :: rest, item, h => by
      rcases List.mem_cons.mp h with hfirst | hmem
      · rw [hfirst]
        exact writesArranged_value order first
      · exact writesArranged_items order rest item hmem

theorem writesArranged_members (order : KeyOrder) :
    forall (members : List (ScriptString × BoundedJsonValue Number))
      (member : ScriptString × BoundedJsonValue Number), member ∈ members ->
        WritesArranged order member.snd
  | [], _, h => absurd h List.not_mem_nil
  | (key, value) :: rest, member, h => by
      rcases List.mem_cons.mp h with hfirst | hmem
      · rw [hfirst]
        exact writesArranged_value order value
      · exact writesArranged_members order rest member hmem

end

theorem serializeJson_eq (value : BoundedJsonValue Number) (order : KeyOrder) :
    serializeJson value order = .ok (stringify (arranged (order == .canonical) value)) :=
  writesArranged_value order value []

theorem serializeJson_asWritten (value : BoundedJsonValue Number) :
    serializeJson value .asWritten = .ok (stringify value) := by
  have hsame := arranged_false value
  rw [serializeJson_eq]
  show Except.ok (stringify (arranged false value)) = _
  rw [hsame]

theorem serializeJson_canonical (value : BoundedJsonValue Number) :
    serializeJson value .canonical = .ok (stringify (arranged true value)) :=
  serializeJson_eq value .canonical

mutual

/-- The text has the same length in either order. -/
theorem textBytes_arranged (sortKeys : Bool) : forall value : BoundedJsonValue Number,
    textBytes (arranged sortKeys value) = textBytes value
  | .null => rfl
  | .bool _ => rfl
  | .number _ => rfl
  | .string _ => rfl
  | .array items => by
      have hitems := bytes_arrangedItems sortKeys items
      have hlength := congrArg List.length hitems
      rw [List.length_map, List.length_map] at hlength
      rw [arranged, textBytes_array, textBytes_array, hitems, hlength]
  | .object members => by
      have hperm := perm_orderedKeys sortKeys (arrangedMembers sortKeys members)
      have hmembers := bytes_arrangedMembers sortKeys members
      have hlength := congrArg List.length hmembers
      rw [List.length_map, List.length_map] at hlength
      rw [arranged, textBytes_object, textBytes_object, (hperm.map memberBytes).sum_eq,
        hperm.length_eq, hmembers, hlength]

theorem bytes_arrangedItems (sortKeys : Bool) : forall items : List (BoundedJsonValue Number),
    (arrangedItems sortKeys items).map textBytes = items.map textBytes
  | [] => rfl
  | item :: rest => by
      rw [arrangedItems, List.map_cons, List.map_cons, textBytes_arranged sortKeys item,
        bytes_arrangedItems sortKeys rest]

theorem bytes_arrangedMembers (sortKeys : Bool) :
    forall members : List (ScriptString × BoundedJsonValue Number),
      (arrangedMembers sortKeys members).map memberBytes = members.map memberBytes
  | [] => rfl
  | (key, value) :: rest => by
      rw [arrangedMembers, List.map_cons, List.map_cons, memberBytes, memberBytes,
        textBytes_arranged sortKeys value, bytes_arrangedMembers sortKeys rest]

end

theorem stringify_arranged_iff {left right : BoundedJsonValue Number} (hleft : left.Ordered)
    (hright : right.Ordered) :
    stringify (arranged true left) = stringify (arranged true right) ↔
      SameUpToOrder left right := by
  rw [← arranged_eq_iff hleft hright]
  constructor
  · exact stringify_injective_trees
  · exact congrArg stringify

end

end StoredValues
end Pertexo
