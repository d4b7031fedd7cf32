import Pertexo.PortableText.PortableAdmission
import Pertexo.StoredValues.AcceptedCopies
import Pertexo.StoredValues.WrittenValues

/-!
# Parsed records

A record is read from memory or from its text. What is written for a tree is parsed as the tree,
and the parsed value stands for the tree in memory.

## Parsed trees in memory
-/

namespace Pertexo
namespace StoredValues

open Canonical
open JsonBoundaries
open Library
open Pages
open Pagination
open PortableText
open Portability
open Values

section

variable {Number : Type}

theorem keys_programMembers (depth : Nat) (members : GraphMembers Number) :
    (programMembers depth members).map Prod.fst = members.map Prod.fst := by
  induction members with
  | nil => rfl
  | cons member rest ih =>
      rcases member with ⟨key, value⟩
      rw [programMembers, List.map_cons, List.map_cons, ih]

mutual

/-- A parsed value enumerates its members in the order in which it holds them. -/
theorem isOwnOrdered_programValue : forall (depth : Nat) (tree : GraphValue Number),
    tree.Ordered -> (programValue depth tree).IsOwnOrdered
  | _, .null, _ => trivial
  | _, .bool _, _ => trivial
  | _, .number _, _ => trivial
  | _, .string _, _ => trivial
  | depth, .array items, h => areOwnOrdered_programItems (depth + 1) items h
  | depth, .object members, h =>
      ⟨ownOrder_keys (keys_programMembers (depth + 1) members) h.left,
        areOwnOrdered_programMembers (depth + 1) members h.right⟩

theorem areOwnOrdered_programItems : forall (depth : Nat) (items : List (GraphValue Number)),
    OrderedItems items -> AreOwnOrderedItems (programItems depth items)
  | _, [], _ => trivial
  | depth, item :: rest, h =>
      ⟨isOwnOrdered_programValue depth item h.left, areOwnOrdered_programItems depth rest h.right⟩

theorem areOwnOrdered_programMembers : forall (depth : Nat) (members : GraphMembers Number),
    OrderedMembers members -> AreOwnOrderedMembers (programMembers depth members)
  | _, [], _ => trivial
  | depth, (_, value) :: rest, h =>
      ⟨isOwnOrdered_programValue depth value h.left,
        areOwnOrdered_programMembers depth rest h.right⟩

end

theorem below_succ {ancestors : List Nat} {depth : Nat}
    (h : forall ancestor, ancestor ∈ ancestors -> ancestor < depth) :
    forall ancestor, ancestor ∈ depth :: ancestors -> ancestor < depth + 1 := by
  intro ancestor hancestor
  rcases List.mem_cons.mp hancestor with rfl | hmem
  · exact Nat.lt_succ_self _
  · exact Nat.lt_succ_of_lt (h ancestor hmem)

mutual

/-- Containers within a parsed value have larger identities than those around them. -/
theorem isAcyclic_programValue : forall (depth : Nat) (tree : GraphValue Number)
    {ancestors : List Nat}, (forall ancestor, ancestor ∈ ancestors -> ancestor < depth) ->
      (programValue depth tree).IsAcyclic ancestors
  | _, .null, _, _ => trivial
  | _, .bool _, _, _ => trivial
  | _, .number _, _, _ => trivial
  | _, .string _, _, _ => trivial
  | depth, .array items, _, h =>
      ⟨fun hmem => Nat.lt_irrefl depth (h depth hmem),
        areAcyclic_programItems (depth + 1) items (below_succ h)⟩
  | depth, .object members, _, h =>
      ⟨fun hmem => Nat.lt_irrefl depth (h depth hmem),
        areAcyclic_programMembers (depth + 1) members (below_succ h)⟩

theorem areAcyclic_programItems : forall (depth : Nat) (items : List (GraphValue Number))
    {ancestors : List Nat}, (forall ancestor, ancestor ∈ ancestors -> ancestor < depth) ->
      JsonBoundaries.AreAcyclicItems ancestors (programItems depth items)
  | _, [], _, _ => trivial
  | depth, item :: rest, _, h =>
      ⟨isAcyclic_programValue depth item h, areAcyclic_programItems depth rest h⟩

theorem areAcyclic_programMembers : forall (depth : Nat) (members : GraphMembers Number)
    {ancestors : List Nat}, (forall ancestor, ancestor ∈ ancestors -> ancestor < depth) ->
      JsonBoundaries.AreAcyclicMembers ancestors (programMembers depth members)
  | _, [], _, _ => trivial
  | depth, (_, value) :: rest, _, h =>
      ⟨isAcyclic_programValue depth value h, areAcyclic_programMembers depth rest h⟩

end

mutual

theorem hidesNothing_programValue : forall (depth : Nat) (tree : GraphValue Number),
    HidesNothing (programValue depth tree)
  | _, .null => trivial
  | _, .bool _ => trivial
  | _, .number _ => trivial
  | _, .string _ => trivial
  | depth, .array items => itemsHideNothing_programItems (depth + 1) items
  | depth, .object members => ⟨rfl, membersHideNothing_programMembers (depth + 1) members⟩

theorem itemsHideNothing_programItems : forall (depth : Nat) (items : List (GraphValue Number)),
    ItemsHideNothing (programItems depth items)
  | _, [] => trivial
  | depth, item :: rest =>
      ⟨hidesNothing_programValue depth item, itemsHideNothing_programItems depth rest⟩

theorem membersHideNothing_programMembers : forall (depth : Nat) (members : GraphMembers Number),
    MembersHideNothing (programMembers depth members)
  | _, [] => trivial
  | depth, (_, value) :: rest =>
      ⟨hidesNothing_programValue depth value, membersHideNothing_programMembers depth rest⟩

end

theorem keys_parsedMembers (members : List (ScriptString × BoundedJsonValue Number)) :
    (parsedMembers members).map Prod.fst = members.map Prod.fst := by
  induction members with
  | nil => rfl
  | cons member rest ih =>
      rcases member with ⟨key, value⟩
      rw [parsedMembers, List.map_cons, List.map_cons, ih]

mutual

theorem evaluate_parsedTree : forall data : BoundedJsonValue Number, data.Ordered ->
    evaluate (parsedTree data) = parsedTree data
  | .null, _ => rfl
  | .bool _, _ => rfl
  | .number _, _ => rfl
  | .string _, _ => rfl
  | .array items, h => congrArg BoundedJsonValue.array (evaluateItems_parsedItems items h)
  | .object members, h => by
      rw [parsedTree, evaluate, evaluateMembers_parsedMembers members h.right,
        buildObject_of_ownOrder (ownOrder_keys (keys_parsedMembers members) h.left)]

theorem evaluateItems_parsedItems : forall items : List (BoundedJsonValue Number),
    OrderedItems items -> evaluateItems (parsedItems items) = parsedItems items
  | [], _ => rfl
  | item :: rest, h => by
      rw [parsedItems, evaluateItems, evaluate_parsedTree item h.left,
        evaluateItems_parsedItems rest h.right]

theorem evaluateMembers_parsedMembers :
    forall members : List (ScriptString × BoundedJsonValue Number), OrderedMembers members ->
      evaluateMembers (parsedMembers members) = parsedMembers members
  | [], _ => rfl
  | (_, value) :: rest, h => by
      rw [parsedMembers, evaluateMembers, evaluate_parsedTree value h.left,
        evaluateMembers_parsedMembers rest h.right]

end

variable [ScriptNumber Number]

mutual

theorem json?_programValue : forall (depth : Nat) (data : BoundedJsonValue Number),
    (programValue depth (parsedTree data)).json? = some data
  | _, .null => rfl
  | _, .bool _ => rfl
  | _, .number _ => rfl
  | _, .string _ => rfl
  | depth, .array items => by
      rw [parsedTree, programValue, ProgramValue.json?, jsonOfItems_programItems,
        if_neg (by decide)]
      rfl
  | depth, .object members => by
      rw [parsedTree, programValue, ProgramValue.json?, jsonOfMembers_programMembers,
        if_neg (by decide)]
      rfl

theorem jsonOfItems_programItems : forall (depth : Nat) (items : List (BoundedJsonValue Number)),
    jsonOfItems (programItems depth (parsedItems items)) = some items
  | _, [] => rfl
  | depth, item :: rest => by
      rw [parsedItems, programItems, jsonOfItems, json?_programValue depth item,
        jsonOfItems_programItems depth rest]
      rfl

theorem jsonOfMembers_programMembers :
    forall (depth : Nat) (members : List (ScriptString × BoundedJsonValue Number)),
      jsonOfMembers (programMembers depth (parsedMembers members)) = some members
  | _, [] => rfl
  | depth, (key, value) :: rest => by
      rw [parsedMembers, programMembers, jsonOfMembers, json?_programValue depth value,
        jsonOfMembers_programMembers depth rest]
      rfl

end

theorem isPlainJson_programValue (depth : Nat) (data : BoundedJsonValue Number) :
    IsPlainJson (programValue depth (parsedTree data)) data where
  holds := json?_programValue depth data
  hidesNothing := hidesNothing_programValue depth (parsedTree data)
  acyclic := isAcyclic_programValue depth (parsedTree data) fun _ h => absurd h List.not_mem_nil

/-!
## Parsing written texts
-/

theorem parseText_stringify {data : BoundedJsonValue Number} (h : data.Ordered) :
    parseText (textUnits (stringify data)) = some (parsedTree data) := by
  rw [parseText, readJson_stringify]
  exact congrArg some (evaluate_parsedTree data h)

/-!
## Sizes of written texts
-/

theorem scalarUtf8Bytes_le (point : CodePoint) :
    scalarUtf8Bytes point ≤ 3 * point.units.length := by
  cases point with
  | lone unit => exact Nat.le_refl 3
  | char c =>
      by_cases hbasic : c.toNat < 0x10000
      · rw [CodePoint.units, charUnits_of_lt hbasic, List.length_singleton, scalarUtf8Bytes,
          if_neg (by omega)]
        split
        · decide
        · split
          · decide
          · decide
      · rw [CodePoint.units, charUnits, if_neg hbasic, scalarUtf8Bytes, if_pos (by omega)]
        exact Nat.le_of_ble_eq_true rfl

theorem utf8ByteLength_codePoints_le (text : ScriptString) :
    JsonBoundaries.utf8ByteLength (codePoints text) none ≤ 3 * text.length := by
  have hpoints : forall points : List CodePoint, (points.map scalarUtf8Bytes).sum ≤
      3 * (points.flatMap CodePoint.units).length := by
    intro points
    induction points with
    | nil => exact Nat.le_refl 0
    | cons point rest ih =>
        have hpoint := scalarUtf8Bytes_le point
        rw [List.map_cons, List.sum_cons, List.flatMap_cons, List.length_append]
        omega
  have htext := hpoints (codePoints text)
  rw [units_codePoints] at htext
  rw [JsonBoundaries.utf8ByteLength, countPoints_none, Nat.zero_add]
  exact htext

theorem length_textUnits_le (text : List Char) :
    (textUnits text).length ≤ Values.utf8ByteLength text := by
  induction text with
  | nil => exact Nat.le_refl 0
  | cons c rest ih =>
      have hchar : (charUnits c).length ≤ c.utf8Size := by
        by_cases hbasic : c.toNat < 0x10000
        · rw [charUnits_of_lt hbasic]
          exact c.utf8Size_pos
        · rw [← scalarUtf8Bytes_char, charUnits, if_neg hbasic, scalarUtf8Bytes, if_pos (by omega)]
          exact Nat.le_of_ble_eq_true rfl
      rw [textUnits, List.flatMap_cons, List.length_append, utf8ByteLength_cons]
      exact Nat.add_le_add hchar ih

end

end StoredValues
end Pertexo
