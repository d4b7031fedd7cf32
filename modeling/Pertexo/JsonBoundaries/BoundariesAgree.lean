import Pertexo.Canonical.Completeness
import Pertexo.JsonBoundaries.SnapshotTotals

/-!
# The two JSON boundaries

The recursive normalizer and the walk that copies a snapshot accept the same values.

## The value that the normalizer sees

The normalizer counts every own name of an array, and the walk counts the enumerable ones.
-/

namespace Pertexo
namespace JsonBoundaries

open Canonical
open Library
open Pagination
open Values

section

variable {Number : Type}

mutual

def ProgramValue.heap : ProgramValue Number -> HeapValue Number
  | .null => .null
  | .bool value => .bool value
  | .number value => .number value
  | .string text => .string text
  | .unsupported typeName => .unsupported typeName
  | .array identity hasSymbols hiddenNames shownNames items =>
      .array identity hasSymbols (hiddenNames + shownNames) (itemSlots items)
  | .object identity isPlain hasSymbols _ members =>
      .object identity isPlain hasSymbols (memberSlots members)

def itemSlots :
    List (Bool × OwnProperty (ProgramValue Number)) -> List (ScriptSlot (HeapValue Number))
  | [] => []
  | (_, .missing) :: rest => .hole :: itemSlots rest
  | (_, .accessor _) :: rest => .accessor :: itemSlots rest
  | (_, .data value) :: rest => .data value.heap :: itemSlots rest

def memberSlots : List (ScriptString × OwnProperty (ProgramValue Number)) ->
    List (ScriptString × ScriptSlot (HeapValue Number))
  | [] => []
  | (key, .missing) :: rest => (key, .hole) :: memberSlots rest
  | (key, .accessor _) :: rest => (key, .accessor) :: memberSlots rest
  | (key, .data value) :: rest => (key, .data value.heap) :: memberSlots rest

end

mutual

/-- No array has own properties, beside its length, that are not enumerable. -/
def ProgramValue.IsEnumerable : ProgramValue Number -> Prop
  | .array _ _ hiddenNames _ items => hiddenNames = 0 ∧ AreEnumerableItems items
  | .object _ _ _ _ members => AreEnumerableMembers members
  | _ => True

def AreEnumerableItems : List (Bool × OwnProperty (ProgramValue Number)) -> Prop
  | [] => True
  | (_, .missing) :: rest => AreEnumerableItems rest
  | (isEnumerable, .accessor _) :: rest => isEnumerable = true ∧ AreEnumerableItems rest
  | (isEnumerable, .data value) :: rest =>
      isEnumerable = true ∧ value.IsEnumerable ∧ AreEnumerableItems rest

def AreEnumerableMembers : List (ScriptString × OwnProperty (ProgramValue Number)) -> Prop
  | [] => True
  | (_, .data value) :: rest => value.IsEnumerable ∧ AreEnumerableMembers rest
  | _ :: rest => AreEnumerableMembers rest

end

mutual

/-- The members of every object stand in the order in which it enumerates its own keys. -/
def ProgramValue.IsOwnOrdered : ProgramValue Number -> Prop
  | .array _ _ _ _ items => AreOwnOrderedItems items
  | .object _ _ _ _ members => OwnOrder members ∧ AreOwnOrderedMembers members
  | _ => True

def AreOwnOrderedItems : List (Bool × OwnProperty (ProgramValue Number)) -> Prop
  | [] => True
  | (_, .data value) :: rest => value.IsOwnOrdered ∧ AreOwnOrderedItems rest
  | _ :: rest => AreOwnOrderedItems rest

def AreOwnOrderedMembers : List (ScriptString × OwnProperty (ProgramValue Number)) -> Prop
  | [] => True
  | (_, .data value) :: rest => value.IsOwnOrdered ∧ AreOwnOrderedMembers rest
  | _ :: rest => AreOwnOrderedMembers rest

end

section

variable [ScriptNumber Number]

mutual

theorem heap_json? : forall {value : ProgramValue Number}, value.IsEnumerable ->
    value.heap.json? = value.json?
  | .null, _ => rfl
  | .bool _, _ => rfl
  | .string _, _ => rfl
  | .number (.finite _), _ => rfl
  | .number .negativeZero, _ => rfl
  | .number .notFinite, _ => rfl
  | .unsupported _, _ => rfl
  | .array identity hasSymbols hiddenNames shownNames items, h => by
      rw [ProgramValue.heap, HeapValue.json?, ProgramValue.json?, heap_jsonItems h.right, h.left,
        Nat.zero_add]
      rw [bne_self_eq_false, Bool.or_false]
  | .object identity isPlain hasSymbols hiddenNames members, h => by
      rw [ProgramValue.heap, HeapValue.json?, ProgramValue.json?, heap_jsonMembers h]

theorem heap_jsonItems : forall {items : List (Bool × OwnProperty (ProgramValue Number))},
    AreEnumerableItems items -> jsonItems (itemSlots items) = jsonOfItems items
  | [], _ => rfl
  | (true, .missing) :: _, _ => rfl
  | (false, .missing) :: _, _ => rfl
  | (true, .accessor _) :: _, _ => rfl
  | (false, .accessor _) :: _, _ => rfl
  | (true, .data value) :: rest, h => by
      rw [itemSlots, jsonItems, jsonOfItems, heap_json? h.right.left, heap_jsonItems h.right.right]
  | (false, .data value) :: rest, h => nomatch h.left

theorem heap_jsonMembers :
    forall {members : List (ScriptString × OwnProperty (ProgramValue Number))},
      AreEnumerableMembers members -> jsonMembers (memberSlots members) = jsonOfMembers members
  | [], _ => rfl
  | (_, .missing) :: _, _ => rfl
  | (_, .accessor _) :: _, _ => rfl
  | (_, .data value) :: rest, h => by
      rw [memberSlots, jsonMembers, jsonOfMembers, heap_json? h.left, heap_jsonMembers h.right]

end

mutual

theorem isEnumerable_of_json? : forall {value : ProgramValue Number}
    {data : BoundedJsonValue Number}, value.json? = some data -> value.IsEnumerable
  | .null, _, _ => trivial
  | .bool _, _, _ => trivial
  | .string _, _, _ => trivial
  | .number _, _, _ => trivial
  | .unsupported _, _, _ => trivial
  | .array identity hasSymbols hiddenNames shownNames items, data, h => by
      rcases array_of_json h with ⟨rfl, rfl, rfl, others, hitems, _⟩
      exact ⟨rfl, areEnumerable_of_jsonOfItems hitems⟩
  | .object identity isPlain hasSymbols hiddenNames members, data, h => by
      rcases object_of_json h with ⟨rfl, rfl, others, hmembers, _⟩
      exact areEnumerable_of_jsonOfMembers hmembers

theorem areEnumerable_of_jsonOfItems :
    forall {items : List (Bool × OwnProperty (ProgramValue Number))}
      {data : List (BoundedJsonValue Number)}, jsonOfItems items = some data ->
        AreEnumerableItems items
  | [], _, _ => trivial
  | (true, .data value) :: rest, data, h => by
      rw [jsonOfItems] at h
      rcases Option.bind_eq_some_iff.mp h with ⟨first, hfirst, h⟩
      rcases Option.bind_eq_some_iff.mp h with ⟨others, hothers, _⟩
      exact ⟨rfl, isEnumerable_of_json? hfirst, areEnumerable_of_jsonOfItems hothers⟩
  | (true, .missing) :: _, _, h => nomatch h
  | (true, .accessor _) :: _, _, h => nomatch h
  | (false, _) :: _, _, h => nomatch h

theorem areEnumerable_of_jsonOfMembers :
    forall {members : List (ScriptString × OwnProperty (ProgramValue Number))}
      {data : List (ScriptString × BoundedJsonValue Number)}, jsonOfMembers members = some data ->
        AreEnumerableMembers members
  | [], _, _ => trivial
  | (_, .data value) :: rest, data, h => by
      rw [jsonOfMembers] at h
      rcases Option.bind_eq_some_iff.mp h with ⟨first, hfirst, h⟩
      rcases Option.bind_eq_some_iff.mp h with ⟨others, hothers, _⟩
      exact ⟨isEnumerable_of_json? hfirst, areEnumerable_of_jsonOfMembers hothers⟩
  | (_, .missing) :: _, _, h => nomatch h
  | (_, .accessor _) :: _, _, h => nomatch h

end

mutual

theorem ordered_of_json? : forall {value : ProgramValue Number} {data : BoundedJsonValue Number},
    value.json? = some data -> value.IsOwnOrdered -> data.Ordered
  | .null, _, h, _ => by
      cases h
      trivial
  | .bool _, _, h, _ => by
      cases h
      trivial
  | .string _, _, h, _ => by
      cases h
      trivial
  | .number (.finite _), _, h, _ => by
      cases h
      trivial
  | .number .negativeZero, _, h, _ => by
      cases h
      trivial
  | .number .notFinite, _, h, _ => nomatch h
  | .unsupported _, _, h, _ => nomatch h
  | .array identity hasSymbols hiddenNames shownNames items, data, h, hordered => by
      rcases array_of_json h with ⟨rfl, rfl, rfl, others, hitems, rfl⟩
      exact ordered_of_jsonOfItems hitems hordered
  | .object identity isPlain hasSymbols hiddenNames members, data, h, hordered => by
      rcases object_of_json h with ⟨rfl, rfl, others, hmembers, rfl⟩
      refine ⟨?_, ordered_of_jsonOfMembers hmembers hordered.right⟩
      exact ownOrder_keys (keys_of_jsonOfMembers hmembers).symm hordered.left

theorem ordered_of_jsonOfItems :
    forall {items : List (Bool × OwnProperty (ProgramValue Number))}
      {data : List (BoundedJsonValue Number)}, jsonOfItems items = some data ->
        AreOwnOrderedItems items -> OrderedItems data
  | [], _, h, _ => by
      cases h
      trivial
  | (true, .data value) :: rest, data, h, hordered => by
      rw [jsonOfItems] at h
      rcases Option.bind_eq_some_iff.mp h with ⟨first, hfirst, h⟩
      rcases Option.bind_eq_some_iff.mp h with ⟨others, hothers, h⟩
      cases h
      exact ⟨ordered_of_json? hfirst hordered.left, ordered_of_jsonOfItems hothers hordered.right⟩
  | (true, .missing) :: _, _, h, _ => nomatch h
  | (true, .accessor _) :: _, _, h, _ => nomatch h
  | (false, _) :: _, _, h, _ => nomatch h

theorem ordered_of_jsonOfMembers :
    forall {members : List (ScriptString × OwnProperty (ProgramValue Number))}
      {data : List (ScriptString × BoundedJsonValue Number)}, jsonOfMembers members = some data ->
        AreOwnOrderedMembers members -> OrderedMembers data
  | [], _, h, _ => by
      cases h
      trivial
  | (_, .data value) :: rest, data, h, hordered => by
      rw [jsonOfMembers] at h
      rcases Option.bind_eq_some_iff.mp h with ⟨first, hfirst, h⟩
      rcases Option.bind_eq_some_iff.mp h with ⟨others, hothers, h⟩
      cases h
      exact ⟨ordered_of_json? hfirst hordered.left, ordered_of_jsonOfMembers hothers hordered.right⟩
  | (_, .missing) :: _, _, h, _ => nomatch h
  | (_, .accessor _) :: _, _, h, _ => nomatch h

end

end

mutual

theorem isAcyclic_heap : forall {value : ProgramValue Number} {ancestors : List Nat},
    (value.identities ++ ancestors).Nodup -> value.heap.IsAcyclic ancestors
  | .null, _, _ => trivial
  | .bool _, _, _ => trivial
  | .string _, _, _ => trivial
  | .number _, _, _ => trivial
  | .unsupported _, _, _ => trivial
  | .array identity hasSymbols hiddenNames shownNames items, ancestors, h => by
      rw [ProgramValue.identities, List.append_assoc] at h
      exact ⟨(List.nodup_cons.mp h.of_append_right).left, areAcyclic_itemSlots h⟩
  | .object identity isPlain hasSymbols hiddenNames members, ancestors, h => by
      rw [ProgramValue.identities, List.append_assoc] at h
      exact ⟨(List.nodup_cons.mp h.of_append_right).left, areAcyclic_memberSlots h⟩

theorem areAcyclic_itemSlots : forall {items : List (Bool × OwnProperty (ProgramValue Number))}
    {ancestors : List Nat}, (itemIdentities items ++ ancestors).Nodup ->
      Canonical.AreAcyclicItems ancestors (itemSlots items)
  | [], _, _ => trivial
  | (_, .missing) :: rest, ancestors, h => @areAcyclic_itemSlots rest ancestors h
  | (_, .accessor _) :: rest, ancestors, h => @areAcyclic_itemSlots rest ancestors h
  | (_, .data value) :: rest, ancestors, h => by
      rw [itemIdentities, List.append_assoc] at h
      have hrest : (itemIdentities rest ++ ancestors).Nodup :=
        h.sublist ((List.Sublist.refl _).append (List.sublist_append_right _ _))
      exact ⟨isAcyclic_heap h.of_append_right, areAcyclic_itemSlots hrest⟩

theorem areAcyclic_memberSlots :
    forall {members : List (ScriptString × OwnProperty (ProgramValue Number))}
      {ancestors : List Nat}, (memberIdentities members ++ ancestors).Nodup ->
        Canonical.AreAcyclicMembers ancestors (memberSlots members)
  | [], _, _ => trivial
  | (_, .missing) :: rest, ancestors, h => @areAcyclic_memberSlots rest ancestors h
  | (_, .accessor _) :: rest, ancestors, h => @areAcyclic_memberSlots rest ancestors h
  | (_, .data value) :: rest, ancestors, h => by
      rw [memberIdentities, List.append_assoc] at h
      have hrest : (memberIdentities rest ++ ancestors).Nodup :=
        h.sublist ((List.Sublist.refl _).append (List.sublist_append_right _ _))
      exact ⟨isAcyclic_heap h.of_append_right, areAcyclic_memberSlots hrest⟩

end

/-!
## What the walk copies is JSON data
-/

section

variable [ScriptNumber Number] {limits : BoundedJsonLimits}

theorem visitKey_ok {key : ScriptString} {property : OwnProperty (ProgramValue Number)}
    {depth : Nat} {state : VisitState Number}
    {taken : List (VisitFrame Number) × VisitState Number}
    (h : visitKey limits key property depth state = .ok taken) :
    exists child, property = .data child ∧
      ((exists scalar, primitiveJson child = some scalar) ∨
        exists keys target entered, inspectContainer limits child = .ok (keys, target) ∧
          taken = (keyFrames keys (depth + 1) ++ [.leave key], entered)) := by
  rw [visitKey.eq_def] at h
  dsimp only at h
  split at h
  · cases h
  · split at h
    · next child =>
      refine ⟨child, rfl, ?_⟩
      split at h
      · next scalar hscalar => exact Or.inl ⟨scalar, hscalar⟩
      · apply Or.inr
        rw [visitContainer] at h
        split at h
        · cases h
        · split at h
          · cases h
          · split at h
            · cases h
            · rcases exists_of_bind_eq_ok h with ⟨⟨keys, target⟩, hcontainer, h⟩
              cases h
              exact ⟨keys, target, _, hcontainer, rfl⟩
    · cases h

theorem json?_of_primitiveJson {value : ProgramValue Number} {scalar : BoundedJsonValue Number}
    (h : primitiveJson value = some scalar) : value.json? = some scalar := by
  cases value with
  | null => exact h
  | bool value => exact h
  | string text => exact h
  | number value =>
      cases value with
      | finite value => exact h
      | negativeZero => exact h
      | notFinite => cases h
  | unsupported typeName => cases h
  | array identity hasSymbols hiddenNames shownNames items => cases h
  | object identity isPlain hasSymbols hiddenNames members => cases h

omit [ScriptNumber Number] in
theorem inspectContainer_array_ok {identity hiddenNames shownNames : Nat} {hasSymbols : Bool}
    {items : List (Bool × OwnProperty (ProgramValue Number))}
    {keys : List (ScriptString × OwnProperty (ProgramValue Number))} {target : JsonTarget Number}
    (h : inspectContainer limits (.array identity hasSymbols hiddenNames shownNames items) =
      .ok (keys, target)) :
    hasSymbols = false ∧ keys = indexedItems 0 items ∧
      (items.countP fun item => item.fst && item.snd.isPresent) + shownNames = items.length := by
  rw [inspectContainer] at h
  split at h
  · cases h
  · split at h
    · cases h
    · next hsymbols =>
      split at h
      · cases h
      · next hcount =>
        cases h
        refine ⟨by simpa using hsymbols, rfl, ?_⟩
        simpa using hcount

omit [ScriptNumber Number] in
theorem inspectContainer_object_ok {identity hiddenNames : Nat} {isPlain hasSymbols : Bool}
    {members keys : List (ScriptString × OwnProperty (ProgramValue Number))}
    {target : JsonTarget Number}
    (h : inspectContainer limits (.object identity isPlain hasSymbols hiddenNames members) =
      .ok (keys, target)) : isPlain = true ∧ hasSymbols = false ∧ keys = members := by
  rw [inspectContainer] at h
  split at h
  · cases h
  · next hplain =>
    split at h
    · cases h
    · next hsymbols =>
      cases h
      exact ⟨by simpa using hplain, by simpa using hsymbols, rfl⟩

theorem visited_ok {key : ScriptString} {property : OwnProperty (ProgramValue Number)}
    {depth : Nat} {rest : List (VisitFrame Number)} {state final : VisitState Number}
    (h : (visitMachine Number limits).run (.key key property depth :: rest) state = .ok final) :
    (exists child, property = .data child ∧
      ((exists scalar, child.json? = some scalar) ∨
        exists keys target before after, inspectContainer limits child = .ok (keys, target) ∧
          (visitMachine Number limits).run (keyFrames keys (depth + 1)) before = .ok after)) ∧
    exists next, (visitMachine Number limits).run rest next = .ok final := by
  rw [StackMachine.run_cons] at h
  rcases exists_of_bind_eq_ok h with ⟨next, hfirst, hrest⟩
  refine ⟨?_, next, hrest⟩
  rw [StackMachine.run_singleton] at hfirst
  rcases exists_of_bind_eq_ok hfirst with ⟨taken, htaken, hrun⟩
  have hvisited : visitKey limits key property depth state = .ok taken := htaken
  rcases visitKey_ok hvisited with ⟨child, hchild, ⟨scalar, hscalar⟩ | hcontainer⟩
  · exact ⟨child, hchild, Or.inl ⟨scalar, json?_of_primitiveJson hscalar⟩⟩
  · rcases hcontainer with ⟨keys, target, entered, hcontainer, rfl⟩
    rw [StackMachine.run_append] at hrun
    rcases exists_of_bind_eq_ok hrun with ⟨after, hafter, _⟩
    exact ⟨child, hchild, Or.inr ⟨keys, target, entered, after, hcontainer, hafter⟩⟩

mutual

/-- A container that has been copied with all of its keys holds JSON data. -/
theorem json?_of_container : forall {value : ProgramValue Number}
    {keys : List (ScriptString × OwnProperty (ProgramValue Number))} {target : JsonTarget Number}
    {depth : Nat} {state final : VisitState Number}, value.IsEnumerable ->
      inspectContainer limits value = .ok (keys, target) ->
        (visitMachine Number limits).run (keyFrames keys depth) state = .ok final ->
          exists data, value.json? = some data
  | .null, _, _, _, _, _, _, h, _ => nomatch h
  | .bool _, _, _, _, _, _, _, h, _ => nomatch h
  | .string _, _, _, _, _, _, _, h, _ => nomatch h
  | .number _, _, _, _, _, _, _, h, _ => nomatch h
  | .unsupported _, _, _, _, _, _, _, h, _ => nomatch h
  | .array identity hasSymbols hiddenNames shownNames items, keys, target, depth, state, final,
      henumerable, h, hrun => by
      rcases inspectContainer_array_ok h with ⟨rfl, rfl, hcount⟩
      rcases jsonOfItems_of_run henumerable.right hrun with ⟨data, hdata⟩
      rw [countP_of_jsonOfItems hdata] at hcount
      have hshown : shownNames = 0 := by omega
      refine ⟨.array data, ?_⟩
      rw [ProgramValue.json?, henumerable.left, hshown, hdata, if_neg (by decide)]
      rfl
  | .object identity isPlain hasSymbols hiddenNames members, keys, target, depth, state, final,
      henumerable, h, hrun => by
      rcases inspectContainer_object_ok h with ⟨rfl, rfl, rfl⟩
      rcases jsonOfMembers_of_run henumerable hrun with ⟨data, hdata⟩
      refine ⟨.object data, ?_⟩
      rw [ProgramValue.json?, hdata, if_neg (by decide)]
      rfl

theorem jsonOfItems_of_run : forall {items : List (Bool × OwnProperty (ProgramValue Number))}
    {index depth : Nat} {state final : VisitState Number}, AreEnumerableItems items ->
      (visitMachine Number limits).run (keyFrames (indexedItems index items) depth) state =
        .ok final -> exists data, jsonOfItems items = some data
  | [], _, _, _, _, _, _ => ⟨[], rfl⟩
  | (_, .missing) :: _, _, _, _, _, _, hrun => by
      rcases visited_ok hrun with ⟨⟨child, hchild, _⟩, _⟩
      cases hchild
  | (_, .accessor _) :: _, _, _, _, _, _, hrun => by
      rcases visited_ok hrun with ⟨⟨child, hchild, _⟩, _⟩
      cases hchild
  | (isEnumerable, .data value) :: rest, index, depth, state, final, henumerable, hrun => by
      rcases visited_ok hrun with ⟨⟨child, hchild, hvalue⟩, next, hrest⟩
      cases hchild
      rcases jsonOfItems_of_run henumerable.right.right hrest with ⟨others, hothers⟩
      have hfirst : exists first, value.json? = some first := by
        rcases hvalue with hscalar | ⟨keys, target, before, after, hcontainer, hkeys⟩
        · exact hscalar
        · exact json?_of_container henumerable.right.left hcontainer hkeys
      rcases hfirst with ⟨first, hfirst⟩
      refine ⟨first :: others, ?_⟩
      rw [henumerable.left, jsonOfItems, hfirst, hothers]
      rfl

theorem jsonOfMembers_of_run :
    forall {members : List (ScriptString × OwnProperty (ProgramValue Number))} {depth : Nat}
      {state final : VisitState Number}, AreEnumerableMembers members ->
        (visitMachine Number limits).run (keyFrames members depth) state = .ok final ->
          exists data, jsonOfMembers members = some data
  | [], _, _, _, _, _ => ⟨[], rfl⟩
  | (_, .missing) :: _, _, _, _, _, hrun => by
      rcases visited_ok hrun with ⟨⟨child, hchild, _⟩, _⟩
      cases hchild
  | (_, .accessor _) :: _, _, _, _, _, hrun => by
      rcases visited_ok hrun with ⟨⟨child, hchild, _⟩, _⟩
      cases hchild
  | (key, .data value) :: rest, depth, state, final, henumerable, hrun => by
      rcases visited_ok hrun with ⟨⟨child, hchild, hvalue⟩, next, hrest⟩
      cases hchild
      rcases jsonOfMembers_of_run henumerable.right hrest with ⟨others, hothers⟩
      have hfirst : exists first, value.json? = some first := by
        rcases hvalue with hscalar | ⟨keys, target, before, after, hcontainer, hkeys⟩
        · exact hscalar
        · exact json?_of_container henumerable.left hcontainer hkeys
      rcases hfirst with ⟨first, hfirst⟩
      refine ⟨(key, first) :: others, ?_⟩
      rw [jsonOfMembers, hfirst, hothers]
      rfl

end

/-!
## Snapshots of JSON data
-/

theorem boundedSnapshot_iff {data snapshot : BoundedJsonValue Number} :
    boundedSnapshot limits data = .ok snapshot ↔
      snapshot = data ∧ textBytes data ≤ limits.bytes := by
  rw [boundedSnapshot]
  split
  · next hlarge =>
    constructor
    · intro h
      cases h
    · intro h
      exact absurd h.right (Nat.not_le_of_lt hlarge)
  · next hsmall =>
    constructor
    · intro h
      cases h
      exact ⟨rfl, Nat.le_of_not_lt hsmall⟩
    · intro h
      rw [h.left]

omit [ScriptNumber Number] in
theorem within_visited {members levels : Nat} :
    Within (snapshotLimits limits) (counting 0 0 + visited 1 members levels) ↔
      levels + 1 ≤ max 1 limits.depth ∧ members ≤ limits.members := by
  have hmembers : (counting 0 0 + visited 1 members levels).of .members = members :=
    Nat.zero_add _
  have hdepth : (counting 0 0 + visited 1 members levels).of .depth =
      if levels = 0 then 0 else 1 + levels := Nat.zero_max _
  constructor
  · intro h
    constructor
    · apply Nat.le_of_not_lt
      intro hdeep
      refine h .depth ⟨limits.depth, rfl, ?_⟩
      rw [hdepth]
      split <;> omega
    · apply Nat.le_of_not_lt
      intro hmany
      exact h .members ⟨limits.members, rfl, hmembers.symm ▸ hmany⟩
  · intro ⟨hfits, hfew⟩ kind ⟨maximum, hlimit, hexceeds⟩
    cases kind with
    | bytes => cases hlimit
    | members =>
        cases hlimit
        rw [hmembers] at hexceeds
        exact absurd hfew (Nat.not_le_of_lt hexceeds)
    | depth =>
        cases hlimit
        rw [hdepth] at hexceeds
        split at hexceeds <;> omega

theorem inspectObject_iff {value : ProgramValue Number}
    {keys : List (ScriptString × OwnProperty (ProgramValue Number))}
    {empty filled : JsonTarget Number} {seen : List Nat} {members levels : Nat}
    (hcontainer : inspectContainer limits value = .ok (keys, empty) ∨
      (inspectContainer limits value = .error .memberLimit ∧ limits.members < members))
    (hkeys : Accounts (snapshotLimits limits) reasonKind (counting 0 0 + visited 1 members levels)
      { seen, members := 0 + members, targets := [filled] }
      ((visitMachine Number limits).run (keyFrames keys 1)
        { seen := value.identity?.toList, members := 0, targets := [empty] }))
    {snapshot : BoundedJsonValue Number} :
    inspectObject limits value = .ok snapshot ↔
      snapshot = filled.value ∧ textBytes filled.value ≤ limits.bytes ∧
        levels + 1 ≤ max 1 limits.depth ∧ members ≤ limits.members := by
  rcases hcontainer with hcontainer | ⟨hcontainer, hlong⟩
  · rw [inspectObject, hcontainer]
    show ((visitMachine Number limits).run (keyFrames keys 1) _ >>= _) = _ ↔ _
    rcases hkeys with ⟨hok, hwithin⟩ | ⟨failure, kind, herror, _, hexceeds⟩
    · rw [hok]
      show boundedSnapshot limits filled.value = _ ↔ _
      rw [boundedSnapshot_iff]
      have hlimits := within_visited.mp hwithin
      constructor
      · intro h
        exact ⟨h.left, h.right, hlimits⟩
      · intro h
        exact ⟨h.left, h.right.left⟩
    · rw [herror]
      constructor
      · intro h
        cases h
      · intro h
        exact absurd hexceeds (within_visited.mpr h.right.right kind)
  · rw [inspectObject, hcontainer]
    constructor
    · intro h
      cases h
    · intro h
      exact absurd h.right.right.right (Nat.not_le_of_lt hlong)

theorem inspectBoundedJson_scalar {value : ProgramValue Number} {data : BoundedJsonValue Number}
    (hdata : value.json? = some data) (hscalar : data.isScalar = true)
    {snapshot : BoundedJsonValue Number} :
    inspectBoundedJson value limits = .ok snapshot ↔
      snapshot = data ∧ textBytes data ≤ limits.bytes ∧ data.depth ≤ max 1 limits.depth ∧
        data.memberCount ≤ limits.members := by
  have hsize := sizes_of_isScalar hscalar
  rw [inspectBoundedJson, (primitiveJson_of_scalar hdata hscalar).left, hsize.left, hsize.right]
  dsimp only
  rw [boundedSnapshot_iff]
  simp

/-- JSON data is copied as it is, when its text, its depth and its members are within the
limits. At the root a container is never too deep. -/
theorem inspectBoundedJson_iff {value : ProgramValue Number} {data : BoundedJsonValue Number}
    (hdata : value.json? = some data) (hordered : data.Ordered)
    (hunshared : value.identities.Nodup) {snapshot : BoundedJsonValue Number} :
    inspectBoundedJson value limits = .ok snapshot ↔
      snapshot = data ∧ textBytes data ≤ limits.bytes ∧ data.depth ≤ max 1 limits.depth ∧
        data.memberCount ≤ limits.members := by
  cases value with
  | null =>
      apply inspectBoundedJson_scalar hdata
      cases hdata
      rfl
  | bool value =>
      apply inspectBoundedJson_scalar hdata
      cases hdata
      rfl
  | string text =>
      apply inspectBoundedJson_scalar hdata
      cases hdata
      rfl
  | number value =>
      apply inspectBoundedJson_scalar hdata
      cases value with
      | finite value =>
          cases hdata
          rfl
      | negativeZero =>
          cases hdata
          rfl
      | notFinite => cases hdata
  | unsupported typeName => cases hdata
  | array identity hasSymbols hiddenNames shownNames items =>
      rcases array_of_json hdata with ⟨rfl, rfl, rfl, others, hitems, rfl⟩
      exact inspectObject_iff (inspectContainer_array hitems identity 0)
        (visitsAs_items items hitems hordered 1 0 _ [] [] rfl hunshared within_zero)
  | object identity isPlain hasSymbols hiddenNames members =>
      rcases object_of_json hdata with ⟨rfl, rfl, others, hmembers, rfl⟩
      have hkeys := visitsAs_members members hmembers hordered.right 1
        { seen := [identity], members := 0, targets := [.members []] } [] [] rfl hunshared
        (@within_zero (snapshotLimits limits))
      rw [foldl_defineProperty_of_ownOrder (by rw [List.nil_append]; exact hordered.left),
        List.nil_append] at hkeys
      have hcontainer : inspectContainer limits
          (.object identity true false hiddenNames members) = .ok (members, .members []) := rfl
      exact inspectObject_iff (Or.inl hcontainer) hkeys

/-- On JSON data the walk decides as the one over plain trees does. -/
theorem inspectBoundedJson_eq_script {value : ProgramValue Number} {data : BoundedJsonValue Number}
    (hdata : value.json? = some data) (hordered : data.Ordered)
    (hunshared : value.identities.Nodup) (hdepth : 0 < limits.depth) :
    inspectBoundedJson value limits = .ok data ↔
      Values.inspectBoundedJson data.script limits = .ok data := by
  have hroot : max 1 limits.depth = limits.depth := max_eq_right hdepth
  rw [inspectBoundedJson_iff hdata hordered hunshared, hroot]
  constructor
  · rintro ⟨_, hbytes, hlevels, hmembers⟩
    exact inspectBoundedJson_script hdepth ⟨hordered, hlevels, hmembers, hbytes⟩
  · intro h
    have hfits := snapshotFits_of_inspectBoundedJson hdepth h
    exact ⟨rfl, hfits.bytes, hfits.depth, hfits.members⟩

theorem json?_of_inspectBoundedJson {value : ProgramValue Number}
    (henumerable : value.IsEnumerable) {snapshot : BoundedJsonValue Number}
    (h : inspectBoundedJson value limits = .ok snapshot) :
    exists data, value.json? = some data := by
  rw [inspectBoundedJson] at h
  split at h
  · next primitive hprimitive =>
    exact ⟨primitive, json?_of_primitiveJson hprimitive⟩
  · split at h
    · cases h
    · rw [inspectObject] at h
      rcases exists_of_bind_eq_ok h with ⟨⟨keys, target⟩, hcontainer, h⟩
      rcases exists_of_bind_eq_ok h with ⟨state, hrun, _⟩
      exact json?_of_container henumerable hcontainer hrun

theorem isJsonValue_heap {value : ProgramValue Number} {data : BoundedJsonValue Number}
    (hdata : value.json? = some data) (hordered : data.Ordered)
    (hunshared : value.identities.Nodup) (hfits : height data ≤ canonicalJsonMaxDepth) :
    IsJsonValue value.heap data where
  holds := (heap_json? (isEnumerable_of_json? hdata)).trans hdata
  acyclic := isAcyclic_heap (by rw [List.append_nil]; exact hunshared)
  ordered := hordered
  fits := hfits

/-- The two boundaries accept the same values, and a snapshot is the value that was accepted.
A container at the root is never too deep for the walk. -/
theorem boundaries_agree {value : ProgramValue Number} (hunshared : value.identities.Nodup)
    (hordered : value.IsOwnOrdered) (henumerable : value.IsEnumerable)
    (hdepth : limits.depth ≤ canonicalJsonMaxDepth) :
    ((exists snapshot, inspectBoundedJson value limits = .ok snapshot) ↔
      exists inspection, inspectJsonValue value.heap = .ok inspection ∧
        inspection.bytes ≤ limits.bytes ∧ inspection.depth ≤ max 1 limits.depth ∧
          inspection.members ≤ limits.members) ∧
    forall snapshot, inspectBoundedJson value limits = .ok snapshot ->
      value.json? = some snapshot ∧
      forall copy : ProgramValue Number, copy.json? = some snapshot -> copy.identities.Nodup ->
        (exists text, canonicalJson value.heap = .ok text ∧ canonicalJson copy.heap = .ok text) ∧
          inspectBoundedJson copy limits = .ok snapshot := by
  have hmax : max 1 limits.depth ≤ canonicalJsonMaxDepth := max_le (by decide) hdepth
  constructor
  · constructor
    · intro ⟨snapshot, hsnapshot⟩
      rcases json?_of_inspectBoundedJson henumerable hsnapshot with ⟨data, hdata⟩
      have hdataOrdered := ordered_of_json? hdata hordered
      rcases (inspectBoundedJson_iff hdata hdataOrdered hunshared).mp hsnapshot with
        ⟨_, hbytes, hfits, hmembers⟩
      have hheight : height data ≤ canonicalJsonMaxDepth :=
        (height_le_depth data).trans (hfits.trans hmax)
      have hvalue := isJsonValue_heap hdata hdataOrdered hunshared hheight
      exact ⟨_, inspectJsonValue_eq hvalue, hbytes, hfits, hmembers⟩
    · intro ⟨inspection, hinspection, hbytes, hfits, hmembers⟩
      rcases exists_of_bind_eq_ok hinspection with ⟨normalized, hnormalized, _⟩
      rcases canonicalizeJson_ok hnormalized with ⟨data, hdata, hheight⟩
      rw [heap_json? henumerable] at hdata
      have hdataOrdered := ordered_of_json? hdata hordered
      have hvalue := isJsonValue_heap hdata hdataOrdered hunshared hheight
      rw [inspectJsonValue_eq hvalue] at hinspection
      cases hinspection
      refine ⟨data, (inspectBoundedJson_iff hdata hdataOrdered hunshared).mpr ?_⟩
      exact ⟨rfl, hbytes, hfits, hmembers⟩
  · intro snapshot hsnapshot
    rcases json?_of_inspectBoundedJson henumerable hsnapshot with ⟨data, hdata⟩
    have hdataOrdered := ordered_of_json? hdata hordered
    rcases (inspectBoundedJson_iff hdata hdataOrdered hunshared).mp hsnapshot with ⟨rfl, hlimits⟩
    refine ⟨hdata, ?_⟩
    intro copy hcopy hcopyUnshared
    have hheight : height snapshot ≤ canonicalJsonMaxDepth :=
      (height_le_depth snapshot).trans (hlimits.right.left.trans hmax)
    constructor
    · exact ⟨_, (isJsonValue_heap hdata hdataOrdered hunshared hheight).canonicalJson_eq,
        (isJsonValue_heap hcopy hdataOrdered hcopyUnshared hheight).canonicalJson_eq⟩
    · exact (inspectBoundedJson_iff hcopy hdataOrdered hcopyUnshared).mpr ⟨rfl, hlimits⟩

end

end

/-- An object with a list of a negative zero and a seven. -/
def zeroValue : ProgramValue Nat :=
  .object 0 true false 0 [(scriptString "a", .data (.array 1 false 0 0
    [(true, .data (.number .negativeZero)), (true, .data (.number (.finite 7)))]))]

theorem boundaries_agree_zero :
    (exists snapshot, inspectBoundedJson zeroValue { bytes := 11, depth := 2, members := 3 } =
      .ok snapshot) ∧
    inspectBoundedJson zeroValue { bytes := 11, depth := 2, members := 3 } =
      .ok (.object [(scriptString "a", .array [.number 0, .number 7])]) := by
  have hunshared : zeroValue.identities.Nodup := by decide
  have hordered : zeroValue.IsOwnOrdered := by
    simp [zeroValue, ProgramValue.IsOwnOrdered, AreOwnOrderedMembers, AreOwnOrderedItems, OwnOrder]
  have henumerable : zeroValue.IsEnumerable := by
    simp [zeroValue, ProgramValue.IsEnumerable, AreEnumerableMembers, AreEnumerableItems]
  have hdata : zeroValue.json? =
      some (.object [(scriptString "a", .array [.number 0, .number 7])]) := by rfl
  have hdataOrdered := ordered_of_json? hdata hordered
  have hvalue := isJsonValue_heap hdata hdataOrdered hunshared (by decide)
  have hagree := @boundaries_agree Nat _ { bytes := 11, depth := 2, members := 3 } zeroValue
    hunshared hordered henumerable (by decide)
  have haccepted := hagree.left.mpr ⟨_, inspectJsonValue_eq hvalue, by decide, by decide, by decide⟩
  refine ⟨haccepted, ?_⟩
  rcases haccepted with ⟨snapshot, hsnapshot⟩
  have hsame := (hagree.right snapshot hsnapshot).left
  rw [hdata] at hsame
  cases hsame
  exact hsnapshot

/-- The walk copies an empty object at depth zero, and an array with a hidden property. -/
theorem boundaries_differ :
    ¬ ((exists snapshot, inspectBoundedJson (.object 0 true false 0 [] : ProgramValue Nat)
          { bytes := 2, depth := 0, members := 0 } = .ok snapshot) ↔
        exists inspection,
          inspectJsonValue (ProgramValue.heap (.object 0 true false 0 [] : ProgramValue Nat)) =
            .ok inspection ∧ inspection.bytes ≤ 2 ∧ inspection.depth ≤ 0 ∧
              inspection.members ≤ 0) ∧
    ¬ ((exists snapshot, inspectBoundedJson (.array 0 false 1 0 [] : ProgramValue Nat)
          { bytes := 2, depth := 1, members := 0 } = .ok snapshot) ↔
        exists inspection,
          inspectJsonValue (ProgramValue.heap (.array 0 false 1 0 [] : ProgramValue Nat)) =
            .ok inspection ∧ inspection.bytes ≤ 2 ∧ inspection.depth ≤ 1 ∧
              inspection.members ≤ 0) := by
  have hcopied : forall (limits : BoundedJsonLimits) (value : ProgramValue Nat)
      (target : JsonTarget Nat), inspectContainer limits value = .ok ([], target) ->
        inspectObject limits value = boundedSnapshot limits target.value := by
    intro limits value target hcontainer
    rw [inspectObject, hcontainer]
    show (visitMachine Nat limits).run [] _ >>= _ = _
    rw [StackMachine.run_nil]
    rfl
  constructor
  · intro h
    have hobject : inspectBoundedJson (.object 0 true false 0 [] : ProgramValue Nat)
        { bytes := 2, depth := 0, members := 0 } = .ok (.object []) := by
      show inspectObject _ _ = _
      rw [hcopied _ _ (.members []) rfl]
      exact boundedSnapshot_iff.mpr ⟨rfl, by decide⟩
    rcases h.mp ⟨_, hobject⟩ with ⟨inspection, hinspection, _, hdepth, _⟩
    have hsize : inspectJsonValue
        (ProgramValue.heap (.object 0 true false 0 [] : ProgramValue Nat)) =
          .ok { bytes := 2, depth := 1, members := 0 } := by decide
    rw [hsize] at hinspection
    cases hinspection
    exact absurd hdepth (by decide)
  · intro h
    have harray : inspectBoundedJson (.array 0 false 1 0 [] : ProgramValue Nat)
        { bytes := 2, depth := 1, members := 0 } = .ok (.array []) := by
      show inspectObject _ _ = _
      rw [hcopied _ _ (.items []) rfl]
      exact boundedSnapshot_iff.mpr ⟨rfl, by decide⟩
    rcases h.mp ⟨_, harray⟩ with ⟨inspection, hinspection, _⟩
    have hrefused : exists failure, inspectJsonValue
        (ProgramValue.heap (.array 0 false 1 0 [] : ProgramValue Nat)) = .error failure :=
      ⟨_, rfl⟩
    rcases hrefused with ⟨failure, hfailure⟩
    rw [hfailure] at hinspection
    cases hinspection

end JsonBoundaries
end Pertexo
