import Pertexo.JsonBoundaries.ProgramValues
import Pertexo.JsonBoundaries.Totals

/-!
# Snapshots of untrusted values

A snapshot is copied in one walk. The targets of the containers that are being visited stand on
a stack; a target is assigned to the one below it when the last of its keys has been visited,
before any other key of the one below.
-/

namespace Pertexo
namespace JsonBoundaries

open Canonical
open Library
open Values

inductive VisitFrame (Number : Type) where
  | key (key : ScriptString) (property : OwnProperty (ProgramValue Number)) (depth : Nat)
  | leave (key : ScriptString)

structure VisitState (Number : Type) where
  seen : List Nat
  members : Nat
  targets : List (JsonTarget Number)

section

variable {Number : Type}

def indexedItems (index : Nat) : List (Bool × OwnProperty (ProgramValue Number)) ->
    List (ScriptString × OwnProperty (ProgramValue Number))
  | [] => []
  | (_, property) :: rest =>
      (scriptString (toString index), property) :: indexedItems (index + 1) rest

def inspectContainer (limits : BoundedJsonLimits) : ProgramValue Number ->
    Except BoundedJsonFailureReason
      (List (ScriptString × OwnProperty (ProgramValue Number)) × JsonTarget Number)
  | .array _ hasSymbols _ shownNames items =>
      if items.length > limits.members then .error .memberLimit
      else if hasSymbols then .error .symbolProperties
      else if (items.countP fun item => item.fst && item.snd.isPresent) + shownNames !=
          items.length then
        .error .arrayProperties
      else .ok (indexedItems 0 items, .items [])
  | .object _ isPlain hasSymbols _ members =>
      if !isPlain then .error .notPlain
      else if hasSymbols then .error .symbolProperties
      else .ok (members, .members [])
  | _ => .error .notJson

def ProgramValue.identity? : ProgramValue Number -> Option Nat
  | .array identity _ _ _ _ => some identity
  | .object identity _ _ _ _ => some identity
  | _ => none

def assignTop (targets : List (JsonTarget Number)) (key : ScriptString)
    (child : BoundedJsonValue Number) : List (JsonTarget Number) :=
  match targets with
  | [] => []
  | target :: rest => assignChild target key child :: rest

def leaveTarget (key : ScriptString) (targets : List (JsonTarget Number)) :
    List (JsonTarget Number) :=
  match targets with
  | [] => []
  | child :: rest => assignTop rest key child.value

def keyFrames (keys : List (ScriptString × OwnProperty (ProgramValue Number))) (depth : Nat) :
    List (VisitFrame Number) :=
  keys.map fun entry => .key entry.fst entry.snd depth

def visitContainer (limits : BoundedJsonLimits) (key : ScriptString) (child : ProgramValue Number)
    (childDepth : Nat) (state : VisitState Number) :
    Except BoundedJsonFailureReason (List (VisitFrame Number) × VisitState Number) :=
  match child.identity? with
  | none => .error .notJson
  | some identity =>
      if childDepth > limits.depth then .error .depthLimit
      else if state.seen.contains identity then .error .repeatedReference
      else do
        let (keys, target) ← inspectContainer limits child
        return (keyFrames keys childDepth ++ [.leave key],
          { state with seen := identity :: state.seen, targets := target :: state.targets })

variable [ScriptNumber Number]

def primitiveJson : ProgramValue Number -> Option (BoundedJsonValue Number)
  | .null => some .null
  | .bool value => some (.bool value)
  | .string text => some (.string text)
  | .number (.finite value) => some (.number value)
  | .number .negativeZero => some (.number ScriptNumber.zero)
  | _ => none

def visitKey (limits : BoundedJsonLimits) (key : ScriptString)
    (property : OwnProperty (ProgramValue Number)) (depth : Nat) (state : VisitState Number) :
    Except BoundedJsonFailureReason (List (VisitFrame Number) × VisitState Number) :=
  let members := state.members + 1
  if members > limits.members then .error .memberLimit
  else
    match property with
    | .data child =>
        match primitiveJson child with
        | some scalar =>
            .ok ([], { state with members, targets := assignTop state.targets key scalar })
        | none => visitContainer limits key child (depth + 1) { state with members }
    | _ => .error .accessors

def visitFrame (limits : BoundedJsonLimits) (frame : VisitFrame Number)
    (state : VisitState Number) :
    Except BoundedJsonFailureReason (List (VisitFrame Number) × VisitState Number) :=
  match frame with
  | .leave key => .ok ([], { state with targets := leaveTarget key state.targets })
  | .key key property depth => visitKey limits key property depth state

end

section

variable {Number : Type}

def OwnProperty.size : OwnProperty (ProgramValue Number) -> Nat
  | .missing => 1
  | .accessor answer => answer.size
  | .data value => value.size

def VisitFrame.weight : VisitFrame Number -> Nat
  | .key _ property _ => 2 * property.size
  | .leave _ => 1

theorem sizes_indexedItems (items : List (Bool × OwnProperty (ProgramValue Number)))
    (index : Nat) :
    ((indexedItems index items).map fun entry => entry.snd.size).sum = sizeOfItems items := by
  induction items generalizing index with
  | nil => rfl
  | cons item rest ih =>
      rcases item with ⟨isEnumerable, property⟩
      cases property with
      | missing =>
        rw [indexedItems, List.map_cons, List.sum_cons, ih, sizeOfItems, OwnProperty.size]
      | accessor answer =>
          rw [indexedItems, List.map_cons, List.sum_cons, ih, sizeOfItems, OwnProperty.size]
      | data value =>
          rw [indexedItems, List.map_cons, List.sum_cons, ih, sizeOfItems, OwnProperty.size]

theorem sizes_properties (members : List (ScriptString × OwnProperty (ProgramValue Number))) :
    (members.map fun entry => entry.snd.size).sum = sizeOfMembers members := by
  induction members with
  | nil => rfl
  | cons member rest ih =>
      rcases member with ⟨key, property⟩
      cases property with
      | missing => rw [List.map_cons, List.sum_cons, ih, sizeOfMembers, OwnProperty.size]
      | accessor answer => rw [List.map_cons, List.sum_cons, ih, sizeOfMembers, OwnProperty.size]
      | data value => rw [List.map_cons, List.sum_cons, ih, sizeOfMembers, OwnProperty.size]

theorem weight_keyFrames (keys : List (ScriptString × OwnProperty (ProgramValue Number)))
    (depth : Nat) :
    ((keyFrames keys depth).map VisitFrame.weight).sum =
      2 * (keys.map fun entry => entry.snd.size).sum := by
  induction keys with
  | nil => rfl
  | cons entry rest ih =>
      rw [keyFrames, List.map_cons, List.map_cons, List.sum_cons, List.map_cons, List.sum_cons,
        Nat.mul_add, ← ih]
      rfl

theorem sizes_inspectContainer {limits : BoundedJsonLimits} {value : ProgramValue Number}
    {keys : List (ScriptString × OwnProperty (ProgramValue Number))} {target : JsonTarget Number}
    (h : inspectContainer limits value = .ok (keys, target)) :
    (keys.map fun entry => entry.snd.size).sum < value.size := by
  cases value with
  | array identity hasSymbols hiddenNames shownNames items =>
      rw [inspectContainer] at h
      split at h
      · cases h
      · split at h
        · cases h
        · split at h
          · cases h
          · cases h
            rw [sizes_indexedItems, ProgramValue.size]
            omega
  | object identity isPlain hasSymbols hiddenNames members =>
      rw [inspectContainer] at h
      split at h
      · cases h
      · split at h
        · cases h
        · cases h
          rw [sizes_properties, ProgramValue.size]
          omega
  | null => cases h
  | bool value => cases h
  | number value => cases h
  | string text => cases h
  | unsupported typeName => cases h

theorem weight_visitContainer {limits : BoundedJsonLimits} {key : ScriptString}
    {child : ProgramValue Number} {childDepth : Nat} {state next : VisitState Number}
    {pushed : List (VisitFrame Number)}
    (h : visitContainer limits key child childDepth state = .ok (pushed, next)) :
    (pushed.map VisitFrame.weight).sum < 2 * child.size := by
  rw [visitContainer] at h
  split at h
  · cases h
  · split at h
    · cases h
    · split at h
      · cases h
      · rcases exists_of_bind_eq_ok h with ⟨⟨keys, target⟩, hcontainer, h⟩
        cases h
        have hsizes := sizes_inspectContainer hcontainer
        rw [List.map_append, List.sum_append, weight_keyFrames]
        show 2 * _ + 1 < 2 * child.size
        omega

variable [ScriptNumber Number]

def visitMachine (Number : Type) [ScriptNumber Number] (limits : BoundedJsonLimits) :
    StackMachine (VisitFrame Number) (VisitState Number) BoundedJsonFailureReason where
  take := visitFrame limits
  weight := VisitFrame.weight
  lighter := by
    intro frame state pushed next h
    cases frame with
    | leave key =>
        cases h
        exact Nat.one_pos
    | key key property depth =>
        rw [visitFrame, visitKey.eq_def] at h
        dsimp only at h
        split at h
        · cases h
        · split at h
          · next child =>
            have hpos := size_pos child
            split at h
            · cases h
              show 0 < 2 * child.size
              omega
            · exact weight_visitContainer h
          · cases h

/-- Copies a container: its own keys are at depth 1. -/
def inspectObject (limits : BoundedJsonLimits) (value : ProgramValue Number) :
    Except BoundedJsonFailureReason (BoundedJsonValue Number) := do
  let (keys, target) ← inspectContainer limits value
  let state ← (visitMachine Number limits).run (keyFrames keys 1)
    { seen := value.identity?.toList, members := 0, targets := [target] }
  match state.targets with
  | [] => .error .notInspected
  | root :: _ => boundedSnapshot limits root.value

/-- Inspects an untrusted value into a snapshot of its own data. -/
def inspectBoundedJson (value : ProgramValue Number) (limits : BoundedJsonLimits) :
    Except BoundedJsonFailureReason (BoundedJsonValue Number) :=
  match primitiveJson value with
  | some primitive => boundedSnapshot limits primitive
  | none =>
      match value.identity? with
      | none => .error .notJson
      | some _ => inspectObject limits value

end

end JsonBoundaries
end Pertexo
