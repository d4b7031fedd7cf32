import Pertexo.JsonBoundaries.ProgramValues
import Pertexo.JsonBoundaries.Totals

/-!
# The walks of the engine

Checkpoints and executables are admitted by walks of one form. A container is counted with its
punctuation and its keys when it is met, and its children are walked later, the last one first.
The walks differ in their limits, in the budgets they give to the measure of a string, in the
amounts they count for a key, and in their messages.
-/

namespace Pertexo
namespace JsonBoundaries

open Library
open Values

structure WalkPolicy where
  bytes : Nat
  depth : Nat
  members : Nat
  arrayItems : Nat
  stopAfterBytes : Nat -> Option Int
  keyAmounts : Nat -> List Nat

inductive WalkFailure where
  | bytes
  | notJson
  | depth
  | cycle
  | notPlain
  | arrayItems
  | members
  | arrayKeys
  | sparse
deriving DecidableEq, Repr

inductive WalkFrame (Number : Type) where
  | value (value : ProgramValue Number) (depth : Nat)
  | exit (identity : Nat)

structure WalkState where
  ancestors : List Nat
  members : Nat
  bytes : Nat
deriving DecidableEq, Repr

structure KeyCounts where
  members : Nat
  bytes : Nat
  enumerableCount : Nat
deriving DecidableEq, Repr

section

variable {Number : Type}

def addBytes (policy : WalkPolicy) (current added : Nat) : Except WalkFailure Nat :=
  if current + added ≤ policy.bytes then .ok (current + added) else .error .bytes

def countMember (policy : WalkPolicy) (members : Nat) : Except WalkFailure Nat :=
  if members + 1 ≤ policy.members then .ok (members + 1) else .error .members

def assertContainer (policy : WalkPolicy) (depth identity : Nat) (ancestors : List Nat) :
    Except WalkFailure Unit :=
  if ¬ depth ≤ policy.depth then .error .depth
  else if ancestors.contains identity then .error .cycle
  else .ok ()

def readItem (policy : WalkPolicy) (counts : KeyCounts) (item : Nat × ProgramValue Number) :
    Except WalkFailure KeyCounts := do
  let members ← countMember policy counts.members
  if item.fst = counts.enumerableCount then
    return { counts with members, enumerableCount := counts.enumerableCount + 1 }
  else .error .arrayKeys

/-- A name next to the items is read after them, and is not the next index. -/
def readFurtherNames (policy : WalkPolicy) (shownNames : Nat) (counts : KeyCounts) :
    Except WalkFailure KeyCounts :=
  if shownNames = 0 then .ok counts
  else do
    let _ ← countMember policy counts.members
    .error .arrayKeys

def addSeparator (policy : WalkPolicy) (counts : KeyCounts) : Except WalkFailure Nat :=
  if counts.enumerableCount > 0 then addBytes policy counts.bytes 1 else .ok counts.bytes

def readMember (policy : WalkPolicy) (counts : KeyCounts)
    (member : ScriptString × ProgramValue Number) : Except WalkFailure KeyCounts := do
  let members ← countMember policy counts.members
  let separated ← addSeparator policy counts
  let length := jsonStringByteLength member.fst (policy.stopAfterBytes separated)
  let bytes ← (policy.keyAmounts length).foldlM (addBytes policy) separated
  return { members, bytes, enumerableCount := counts.enumerableCount + 1 }

def childFrames {Key : Type} (children : List (Key × ProgramValue Number))
    (depth identity : Nat) : List (WalkFrame Number) :=
  (children.map fun child => WalkFrame.value child.snd depth).reverse ++ [.exit identity]

def WalkFrame.weight : WalkFrame Number -> Nat
  | .value item _ => 2 * item.size
  | .exit _ => 1

theorem weight_childFrames {Key : Type} (children : List (Key × ProgramValue Number))
    (depth identity : Nat) :
    ((childFrames children depth identity).map WalkFrame.weight).sum =
      2 * (children.map fun child => child.snd.size).sum + 1 := by
  rw [childFrames, List.map_append, List.map_reverse, List.sum_append, List.sum_reverse,
    List.map_map]
  show _ + 1 = _
  congr 1
  induction children with
  | nil => rfl
  | cons child rest ih =>
      rw [List.map_cons, List.sum_cons, List.map_cons, List.sum_cons, ih, Nat.mul_add]
      rfl

def takeContainer (policy : WalkPolicy) (item : ProgramValue Number) (depth : Nat)
    (state : WalkState) : Except WalkFailure (List (WalkFrame Number) × WalkState) :=
  match item with
  | .array identity _ _ shownNames items => do
      assertContainer policy depth identity state.ancestors
      if ¬ items.length ≤ policy.arrayItems then .error .arrayItems
      else do
        let bytes ← addBytes policy state.bytes (2 + (items.length - 1))
        let read ← (shownItems 0 items).foldlM (readItem policy)
          { members := state.members, bytes, enumerableCount := 0 }
        let counts ← readFurtherNames policy shownNames read
        if counts.enumerableCount = items.length then
          return (childFrames (shownItems 0 items) (depth + 1) identity,
            { ancestors := identity :: state.ancestors
              members := counts.members
              bytes := counts.bytes })
        else .error .sparse
  | .object identity isPlain _ _ members => do
      assertContainer policy depth identity state.ancestors
      if !isPlain then .error .notPlain
      else do
        let bytes ← addBytes policy state.bytes 2
        let counts ← (readMembers members).foldlM (readMember policy)
          { members := state.members, bytes, enumerableCount := 0 }
        return (childFrames (readMembers members) (depth + 1) identity,
          { ancestors := identity :: state.ancestors
            members := counts.members
            bytes := counts.bytes })
  | _ => .error .notJson

theorem weight_takeContainer {policy : WalkPolicy} {item : ProgramValue Number} {depth : Nat}
    {state next : WalkState} {pushed : List (WalkFrame Number)}
    (h : takeContainer policy item depth state = .ok (pushed, next)) :
    (pushed.map WalkFrame.weight).sum < 2 * item.size := by
  cases item with
  | array identity hasSymbols hiddenNames shownNames items =>
      rcases exists_of_bind_eq_ok h with ⟨_, _, h⟩
      split at h
      · cases h
      · rcases exists_of_bind_eq_ok h with ⟨bytes, _, h⟩
        rcases exists_of_bind_eq_ok h with ⟨read, _, h⟩
        rcases exists_of_bind_eq_ok h with ⟨counts, _, h⟩
        split at h
        · cases h
          have hsizes := sizes_shownItems items 0
          rw [weight_childFrames, ProgramValue.size]
          omega
        · cases h
  | object identity isPlain hasSymbols hiddenNames members =>
      rcases exists_of_bind_eq_ok h with ⟨_, _, h⟩
      split at h
      · cases h
      · rcases exists_of_bind_eq_ok h with ⟨bytes, _, h⟩
        rcases exists_of_bind_eq_ok h with ⟨counts, _, h⟩
        cases h
        have hsizes := sizes_readMembers members
        rw [weight_childFrames, ProgramValue.size]
        omega
  | null => cases h
  | bool value => cases h
  | number value => cases h
  | string text => cases h
  | unsupported typeName => cases h

variable [ScriptNumber Number]

def primitiveBytes (item : ProgramValue Number) (stopAfterBytes : Option Int) : Option Nat :=
  match item with
  | .null => some 4
  | .string text => some (jsonStringByteLength text stopAfterBytes)
  | .bool value => some (if value then 4 else 5)
  | .number .negativeZero => some 1
  | .number (.finite value) => some (ScriptNumber.text value).length
  | _ => none

def takeFrame (policy : WalkPolicy) (frame : WalkFrame Number) (state : WalkState) :
    Except WalkFailure (List (WalkFrame Number) × WalkState) :=
  match frame with
  | .exit identity => .ok ([], { state with ancestors := state.ancestors.erase identity })
  | .value item depth =>
      match primitiveBytes item (policy.stopAfterBytes state.bytes) with
      | some amount => do
          let bytes ← addBytes policy state.bytes amount
          return ([], { state with bytes })
      | none => takeContainer policy item depth state

def walkMachine (Number : Type) [ScriptNumber Number] (policy : WalkPolicy) :
    StackMachine (WalkFrame Number) WalkState WalkFailure where
  take := takeFrame policy
  weight := WalkFrame.weight
  lighter := by
    intro frame state pushed next h
    cases frame with
    | exit identity =>
        cases h
        exact Nat.one_pos
    | value item depth =>
        have hpos := size_pos item
        rw [takeFrame] at h
        split at h
        · rcases exists_of_bind_eq_ok h with ⟨bytes, _, h⟩
          cases h
          show 0 < 2 * item.size
          omega
        · exact weight_takeContainer h

def walk (policy : WalkPolicy) (value : ProgramValue Number) : Except WalkFailure Unit :=
  ((walkMachine Number policy).run [.value value 1]
    { ancestors := [], members := 0, bytes := 0 }).map fun _ => ()

/-!
## Checkpoints
-/

def checkpointPolicy : WalkPolicy where
  bytes := 262144
  depth := 64
  members := 10000
  arrayItems := 10000
  stopAfterBytes := fun _ => some 262144
  keyAmounts := fun length => [length + 1]

def assertBoundedCheckpointJson (value : ProgramValue Number) : Except WalkFailure Unit :=
  walk checkpointPolicy value

/-!
## Executables
-/

structure JsonBounds where
  bytes : Nat
  depth : Nat
  members : Nat
deriving DecidableEq, Repr

def executablePolicy (limits : JsonBounds) : WalkPolicy where
  bytes := limits.bytes
  depth := limits.depth
  members := limits.members
  arrayItems := limits.members
  stopAfterBytes := fun bytes => some (limits.bytes - bytes)
  keyAmounts := fun length => [length, 1]

def assertSafeExecutableJson (value : ProgramValue Number) (limits : JsonBounds) :
    Except WalkFailure Unit :=
  walk (executablePolicy limits) value

end

end JsonBoundaries
end Pertexo
