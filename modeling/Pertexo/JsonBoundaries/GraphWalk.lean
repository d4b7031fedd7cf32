import Pertexo.JsonBoundaries.ProgramValues
import Pertexo.JsonBoundaries.Totals
import Pertexo.PortableText.PortableJson

/-!
# Admission of graph input

Graph input is inspected in one walk, which keeps to the order of the keys. The walk takes a
snapshot of what it meets; the facts of the graph are read off the snapshot.
-/

namespace Pertexo
namespace JsonBoundaries

open Canonical
open Library
open PortableText
open Portability
open Values

inductive AdmissionFrame (Number : Type) where
  | enter (value : ProgramValue Number) (path : ScriptString) (depth : Nat)
  | exit (source : Nat)

structure InspectionState where
  ancestors : List Nat
  bytes : Nat
deriving DecidableEq, Repr

section

variable {Number : Type}

mutual

/-- The snapshot of a value that is made of data. -/
def ProgramValue.snapshot : ProgramValue Number -> GraphValue Number
  | .null => .null
  | .bool value => .bool value
  | .number value => .number value
  | .string text => .string text
  | .unsupported _ => .null
  | .array _ _ _ _ items => .array (itemSnapshots items)
  | .object _ _ _ _ members => .object (buildObject (memberSnapshots members))

def itemSnapshots : List (Bool × OwnProperty (ProgramValue Number)) -> List (GraphValue Number)
  | [] => []
  | (_, .data value) :: rest => value.snapshot :: itemSnapshots rest
  | _ :: rest => itemSnapshots rest

def memberSnapshots :
    List (ScriptString × OwnProperty (ProgramValue Number)) -> GraphMembers Number
  | [] => []
  | (key, .data value) :: rest => (key, value.snapshot) :: memberSnapshots rest
  | _ :: rest => memberSnapshots rest

end

def invalidFailure (path : ScriptString) (message : String) : AdmissionFailure :=
  { code := .invalidJson, path, message }

/-- An item has to be there and to hold data. -/
def checkItem (path : ScriptString) (item : (Bool × OwnProperty (ProgramValue Number)) × Nat) :
    Except AdmissionFailure Unit :=
  match item.fst.snd with
  | .missing => .error (invalidFailure (itemPath path item.snd) "sparse arrays are not JSON")
  | .accessor _ =>
      .error (invalidFailure (itemPath path item.snd) "accessors are not valid graph input")
  | .data _ => .ok ()

/-- The bytes left for a string, of which the measure makes its budget. -/
def remainingBytes (limits : AdmissionLimits) (bytes : Nat) : Int :=
  limits.graphBytes - bytes

def checkMember (budget : Int -> Option Int) (limits : AdmissionLimits) (path : ScriptString)
    (bytes : Nat) (member : ScriptString × OwnProperty (ProgramValue Number)) :
    Except AdmissionFailure Nat :=
  let length := jsonStringByteLength member.fst (budget (remainingBytes limits bytes - 1))
  if bytes + (length + 1) > limits.graphBytes then .error graphLimitFailure
  else
    match member.snd with
    | .data _ => .ok (bytes + (length + 1))
    | _ =>
        .error (invalidFailure (memberPath path member.fst) "accessors are not valid graph input")

/-- The children of a container in order, on top of its exit. -/
def entryFrames {Key : Type} (children : List (Key × ProgramValue Number))
    (childPath : Key -> ScriptString) (depth source : Nat) : List (AdmissionFrame Number) :=
  (children.map fun child => AdmissionFrame.enter child.snd (childPath child.fst) depth) ++
    [.exit source]

def inspectArrayUnsafe (limits : AdmissionLimits) (identity : Nat) (hasSymbols : Bool)
    (items : List (Bool × OwnProperty (ProgramValue Number))) (path : ScriptString) (depth : Nat)
    (state : InspectionState) :
    Except AdmissionFailure (List (AdmissionFrame Number) × InspectionState) :=
  let minimumBytes := 2 + (items.length - 1)
  if (minimumBytes : Int) > remainingBytes limits state.bytes then .error graphLimitFailure
  else if hasSymbols then .error (invalidFailure path "symbol properties are not JSON")
  else do
    items.zipIdx.reverse.forM (checkItem path)
    return (entryFrames (heldItems 0 items) (itemPath path) (depth + 1) identity,
      { ancestors := identity :: state.ancestors, bytes := state.bytes + minimumBytes })

def inspectObjectUnsafe (budget : Int -> Option Int) (limits : AdmissionLimits) (identity : Nat)
    (isPlain hasSymbols : Bool) (members : List (ScriptString × OwnProperty (ProgramValue Number)))
    (path : ScriptString) (depth : Nat) (state : InspectionState) :
    Except AdmissionFailure (List (AdmissionFrame Number) × InspectionState) :=
  if hasSymbols then .error (invalidFailure path "symbol properties are not JSON")
  else if !isPlain then .error (invalidFailure path "object must be plain")
  else do
    let bytes ← members.reverse.foldlM (checkMember budget limits path)
      (state.bytes + (2 + (members.length - 1)))
    if bytes > limits.graphBytes then .error graphLimitFailure
    else
      return (entryFrames (readMembers members) (memberPath path) (depth + 1) identity,
        { ancestors := identity :: state.ancestors, bytes })

variable [ScriptNumber Number]

/-- The bytes of a primitive, if it is one that graph input may hold. -/
def primitiveLength (allowNonFiniteNumbers : Bool) (value : ProgramValue Number)
    (stopAfterBytes : Option Int) : Option Nat :=
  match value with
  | .null => some (utf8ByteLength ("null".toList.map .char) stopAfterBytes)
  | .string text => some (jsonStringByteLength text stopAfterBytes)
  | .bool value =>
      some (utf8ByteLength ((if value then "true" else "false").toList.map .char) stopAfterBytes)
  | .number value =>
      if isFiniteNumber value || allowNonFiniteNumbers then
        some (utf8ByteLength ((numberJson value).map .char) stopAfterBytes)
      else none
  | _ => none

def takeEntry (budget : Int -> Option Int) (limits : AdmissionLimits)
    (allowNonFiniteNumbers : Bool) (value : ProgramValue Number) (path : ScriptString)
    (depth : Nat) (state : InspectionState) :
    Except AdmissionFailure (List (AdmissionFrame Number) × InspectionState) :=
  if depth > limits.inputDepth then .error (inputDepthFailure limits path)
  else
    match primitiveLength allowNonFiniteNumbers value
        (budget (remainingBytes limits state.bytes)) with
    | some length =>
        if state.bytes + length > limits.graphBytes then .error graphLimitFailure
        else .ok ([], { state with bytes := state.bytes + length })
    | none =>
        match value with
        | .array identity hasSymbols _ _ items =>
            if state.ancestors.contains identity then
              .error (invalidFailure path "cyclic values are not JSON")
            else inspectArrayUnsafe limits identity hasSymbols items path depth state
        | .object identity isPlain hasSymbols _ members =>
            if state.ancestors.contains identity then
              .error (invalidFailure path "cyclic values are not JSON")
            else
              inspectObjectUnsafe budget limits identity isPlain hasSymbols members path depth state
        | _ => .error (notJsonFailure path)

def takeAdmissionFrame (budget : Int -> Option Int) (limits : AdmissionLimits)
    (allowNonFiniteNumbers : Bool) (frame : AdmissionFrame Number) (state : InspectionState) :
    Except AdmissionFailure (List (AdmissionFrame Number) × InspectionState) :=
  match frame with
  | .exit source => .ok ([], { state with ancestors := state.ancestors.erase source })
  | .enter value path depth =>
      takeEntry budget limits allowNonFiniteNumbers value path depth state

end

section

variable {Number : Type}

def AdmissionFrame.weight : AdmissionFrame Number -> Nat
  | .enter value _ _ => 2 * value.size
  | .exit _ => 1

theorem weight_entryFrames {Key : Type} (children : List (Key × ProgramValue Number))
    (childPath : Key -> ScriptString) (depth source : Nat) :
    ((entryFrames children childPath depth source).map AdmissionFrame.weight).sum =
      2 * (children.map fun child => child.snd.size).sum + 1 := by
  rw [entryFrames, List.map_append, List.sum_append, List.map_map]
  show _ + 1 = _
  congr 1
  induction children with
  | nil => rfl
  | cons child rest ih =>
      rw [List.map_cons, List.sum_cons, List.map_cons, List.sum_cons, ih, Nat.mul_add]
      rfl

theorem weight_inspectArrayUnsafe {limits : AdmissionLimits}
    {identity hiddenNames shownNames : Nat} {hasSymbols : Bool}
    {items : List (Bool × OwnProperty (ProgramValue Number))}
    {path : ScriptString} {depth : Nat} {state next : InspectionState}
    {pushed : List (AdmissionFrame Number)}
    (h : inspectArrayUnsafe limits identity hasSymbols items path depth state =
      .ok (pushed, next)) :
    (pushed.map AdmissionFrame.weight).sum <
      2 * (ProgramValue.array identity hasSymbols hiddenNames shownNames items).size := by
  rw [inspectArrayUnsafe] at h
  split at h
  · cases h
  · split at h
    · cases h
    · rcases exists_of_bind_eq_ok h with ⟨_, _, h⟩
      cases h
      have hsizes := sizes_heldItems items 0
      rw [weight_entryFrames, ProgramValue.size]
      omega

theorem weight_inspectObjectUnsafe {budget : Int -> Option Int} {limits : AdmissionLimits}
    {identity hiddenNames : Nat} {isPlain hasSymbols : Bool}
    {members : List (ScriptString × OwnProperty (ProgramValue Number))}
    {path : ScriptString} {depth : Nat} {state next : InspectionState}
    {pushed : List (AdmissionFrame Number)}
    (h : inspectObjectUnsafe budget limits identity isPlain hasSymbols members path depth state =
      .ok (pushed, next)) :
    (pushed.map AdmissionFrame.weight).sum <
      2 * (ProgramValue.object identity isPlain hasSymbols hiddenNames members).size := by
  rw [inspectObjectUnsafe] at h
  split at h
  · cases h
  · split at h
    · cases h
    · rcases exists_of_bind_eq_ok h with ⟨bytes, _, h⟩
      split at h
      · cases h
      · cases h
        have hsizes := sizes_readMembers members
        rw [weight_entryFrames, ProgramValue.size]
        omega

theorem weight_takeEntry [ScriptNumber Number] {budget : Int -> Option Int}
    {limits : AdmissionLimits} {allowNonFiniteNumbers : Bool} {value : ProgramValue Number}
    {path : ScriptString} {depth : Nat} {state next : InspectionState}
    {pushed : List (AdmissionFrame Number)}
    (h : takeEntry budget limits allowNonFiniteNumbers value path depth state =
      .ok (pushed, next)) :
    (pushed.map AdmissionFrame.weight).sum < 2 * value.size := by
  have hpos := size_pos value
  rw [takeEntry.eq_def] at h
  split at h
  · cases h
  · split at h
    · split at h
      · cases h
      · cases h
        show 0 < 2 * value.size
        omega
    · split at h
      · split at h
        · cases h
        · exact weight_inspectArrayUnsafe h
      · split at h
        · cases h
        · exact weight_inspectObjectUnsafe h
      · cases h

variable [ScriptNumber Number]

def admissionMachine (Number : Type) [ScriptNumber Number] (budget : Int -> Option Int)
    (limits : AdmissionLimits) (allowNonFiniteNumbers : Bool) :
    StackMachine (AdmissionFrame Number) InspectionState AdmissionFailure where
  take := takeAdmissionFrame budget limits allowNonFiniteNumbers
  weight := AdmissionFrame.weight
  lighter := by
    intro frame state pushed next h
    cases frame with
    | exit source =>
        cases h
        exact Nat.one_pos
    | enter value path depth => exact weight_takeEntry h

/-- The walk with the budgets that `budget` makes of the bytes that are left. -/
def inspectDocument (budget : Int -> Option Int) (limits : AdmissionLimits)
    (allowNonFiniteNumbers : Bool) (input : ProgramValue Number) :
    Except AdmissionFailure (GraphValue Number × Nat) :=
  ((admissionMachine Number budget limits allowNonFiniteNumbers).run [.enter input rootPath 1]
    { ancestors := [], bytes := 0 }).map fun state => (input.snapshot, state.bytes)

def inspectJsonDocument (limits : AdmissionLimits) (allowNonFiniteNumbers : Bool)
    (input : ProgramValue Number) : Except AdmissionFailure (GraphValue Number × Nat) :=
  inspectDocument some limits allowNonFiniteNumbers input

def inspectWorkflowGraphAdmission (limits : AdmissionLimits) (allowNonFiniteNumbers : Bool)
    (input : ProgramValue Number) : Except AdmissionFailure (GraphValue Number × Nat) := do
  let inspected ← inspectJsonDocument limits allowNonFiniteNumbers input
  inspectGraphValue limits inspected.fst rootPath 0
  return inspected

end

end JsonBoundaries
end Pertexo
