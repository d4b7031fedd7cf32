import Pertexo.Canonical.Normalization
import Pertexo.Portability.GraphParsing
import Pertexo.Values.Encoding

/-!
# The walks that escape and restore keys

The walks run over the JSON value of a graph, whatever its shape. A clone defines the
own keys of its source again, so that replacing a member leaves it where it stands.
-/

namespace Pertexo
namespace Preflight

open Canonical
open Portability
open Values

section

variable {Number : Type}

def own (key : ScriptString) (members : GraphMembers Number) : Option (GraphValue Number) :=
  (members.find? fun member => member.fst == key).map Prod.snd

/-!
## Values

An object gets its keys one after the other.
-/

mutual

def renameJsonKeys (rename : ScriptString -> ScriptString) :
    GraphValue Number -> GraphValue Number
  | .array items => .array (renameJsonItems rename items)
  | .object members => .object (buildObject (renameJsonMembers rename members))
  | .null => .null
  | .bool value => .bool value
  | .number value => .number value
  | .string text => .string text

def renameJsonItems (rename : ScriptString -> ScriptString) :
    List (GraphValue Number) -> List (GraphValue Number)
  | [] => []
  | item :: rest => renameJsonKeys rename item :: renameJsonItems rename rest

def renameJsonMembers (rename : ScriptString -> ScriptString) :
    GraphMembers Number -> GraphMembers Number
  | [] => []
  | (key, value) :: rest =>
      (rename key, renameJsonKeys rename value) :: renameJsonMembers rename rest

end

def escapeJsonValueKeys : GraphValue Number -> GraphValue Number :=
  renameJsonKeys escapeKey

def restoreJsonValueKeys : GraphValue Number -> GraphValue Number :=
  renameJsonKeys restoreKey

def kindKey : ScriptString :=
  scriptString "kind"

def isLiteral (members : GraphMembers Number) : Bool :=
  match own kindKey members with
  | some (.string kind) => kind == scriptString "literal"
  | _ => false

/-- A clone of a literal with its value rewritten; other sources stay. -/
def renameLiteralKeys (rename : ScriptString -> ScriptString) :
    GraphValue Number -> GraphValue Number
  | .object members =>
      if isLiteral members then
        .object (members.map fun member =>
          (member.fst, if member.fst == scriptString "value" then renameJsonKeys rename member.snd
            else member.snd))
      else .object members
  | source => source

def escapeLiteralSource : GraphValue Number -> GraphValue Number :=
  renameLiteralKeys escapeKey

def restoreLiteralSource : GraphValue Number -> GraphValue Number :=
  renameLiteralKeys restoreKey

def renameConfig (rename : ScriptString -> ScriptString) : GraphValue Number -> GraphValue Number
  | .object members => renameJsonKeys rename (.object members)
  | config => config

def renameMappings (rename : ScriptString -> ScriptString) :
    GraphValue Number -> GraphValue Number
  | .object members =>
      .object (buildObject (members.map fun member =>
        (rename member.fst, renameLiteralKeys rename member.snd)))
  | mappings => mappings

def renameCallable (rename : ScriptString -> ScriptString) :
    GraphValue Number -> GraphValue Number
  | .object members =>
      .object (members.map fun member =>
        (member.fst, if member.fst == scriptString "result" then
          renameLiteralKeys rename member.snd else member.snd))
  | callable => callable

/-- What a walk does to a member of a step, its body apart. -/
def renameField (rename : ScriptString -> ScriptString) (key : ScriptString)
    (value : GraphValue Number) : GraphValue Number :=
  if key == scriptString "config" then renameConfig rename value
  else if key == scriptString "inputMappings" then renameMappings rename value
  else value

/-!
## Graphs

A walk visits the steps of a graph and of every body in it. What it does at the
callable declaration of a graph and of a body, and at the other members of a step, is
its own matter; a guarded walk leaves a graph alone that has no array of steps.
-/

structure GraphWalk (Number : Type) where
  guarded : Bool
  callable : Bool -> GraphValue Number -> GraphValue Number
  field : ScriptString -> GraphValue Number -> GraphValue Number

def hasSteps (members : GraphMembers Number) : Bool :=
  match own (scriptString "nodes") members with
  | some (.array _) => true
  | _ => false

mutual

/-- A graph, or the body of a structured step. -/
def GraphWalk.graph (walk : GraphWalk Number) (isBody : Bool) :
    GraphValue Number -> GraphValue Number
  | .object members =>
      if walk.guarded && !hasSteps members then .object members
      else .object (walk.graphMembers isBody members)
  | .array items => .array items
  | .null => .null
  | .bool value => .bool value
  | .number value => .number value
  | .string text => .string text

def GraphWalk.graphMembers (walk : GraphWalk Number) (isBody : Bool) :
    GraphMembers Number -> GraphMembers Number
  | [] => []
  | (key, value) :: rest =>
      (key, if key == scriptString "nodes" then walk.nodes value
        else if key == scriptString "callable" then walk.callable isBody value
        else value) :: walk.graphMembers isBody rest

def GraphWalk.nodes (walk : GraphWalk Number) : GraphValue Number -> GraphValue Number
  | .array items => .array (walk.nodeItems items)
  | .object members => .object members
  | .null => .null
  | .bool value => .bool value
  | .number value => .number value
  | .string text => .string text

def GraphWalk.nodeItems (walk : GraphWalk Number) : List (GraphValue Number) ->
    List (GraphValue Number)
  | [] => []
  | item :: rest => walk.node item :: walk.nodeItems rest

def GraphWalk.node (walk : GraphWalk Number) : GraphValue Number -> GraphValue Number
  | .object members => .object (walk.nodeMembers members)
  | .array items => .array items
  | .null => .null
  | .bool value => .bool value
  | .number value => .number value
  | .string text => .string text

def GraphWalk.nodeMembers (walk : GraphWalk Number) : GraphMembers Number -> GraphMembers Number
  | [] => []
  | (key, value) :: rest =>
      (key, if key == scriptString "structured" then walk.structured value
        else walk.field key value) :: walk.nodeMembers rest

def GraphWalk.structured (walk : GraphWalk Number) : GraphValue Number -> GraphValue Number
  | .object members => .object (walk.structuredMembers members)
  | .array items => .array items
  | .null => .null
  | .bool value => .bool value
  | .number value => .number value
  | .string text => .string text

def GraphWalk.structuredMembers (walk : GraphWalk Number) :
    GraphMembers Number -> GraphMembers Number
  | [] => []
  | (key, value) :: rest =>
      (key, if key == scriptString "body" then walk.graph true value else value) ::
        walk.structuredMembers rest

end

/-- The walk before the parse clones what it reads, the callable of a body included. -/
def cloneWithEscapedKeys : GraphWalk Number where
  guarded := true
  callable := fun _ => renameCallable escapeKey
  field := renameField escapeKey

/-- The walk after it: a parsed body has no callable declaration to visit. -/
def restoringWalk : GraphWalk Number where
  guarded := false
  callable := fun isBody value => if isBody then value else renameCallable restoreKey value
  field := renameField restoreKey

def escapeDroppedKeys (snapshot : GraphValue Number) : GraphValue Number :=
  cloneWithEscapedKeys.graph false snapshot

def restoreDroppedKeys (graph : GraphValue Number) : GraphValue Number :=
  restoringWalk.graph false graph

/-!
## Members of a walk
-/

variable {walk : GraphWalk Number}

def GraphWalk.atGraph (walk : GraphWalk Number) (isBody : Bool) (key : ScriptString)
    (value : GraphValue Number) : GraphValue Number :=
  if key == scriptString "nodes" then walk.nodes value
  else if key == scriptString "callable" then walk.callable isBody value
  else value

def GraphWalk.atNode (walk : GraphWalk Number) (key : ScriptString)
    (value : GraphValue Number) : GraphValue Number :=
  if key == scriptString "structured" then walk.structured value else walk.field key value

def GraphWalk.atStructured (walk : GraphWalk Number) (key : ScriptString)
    (value : GraphValue Number) : GraphValue Number :=
  if key == scriptString "body" then walk.graph true value else value

theorem graphMembers_eq (isBody : Bool) (members : GraphMembers Number) :
    walk.graphMembers isBody members =
      members.map fun member => (member.fst, walk.atGraph isBody member.fst member.snd) := by
  induction members with
  | nil => rfl
  | cons member rest ih =>
      rw [GraphWalk.graphMembers, ih]
      rfl

theorem nodeItems_eq (items : List (GraphValue Number)) :
    walk.nodeItems items = items.map walk.node := by
  induction items with
  | nil => rfl
  | cons item rest ih =>
      rw [GraphWalk.nodeItems, ih]
      rfl

theorem nodeMembers_eq (members : GraphMembers Number) :
    walk.nodeMembers members =
      members.map fun member => (member.fst, walk.atNode member.fst member.snd) := by
  induction members with
  | nil => rfl
  | cons member rest ih =>
      rw [GraphWalk.nodeMembers, ih]
      rfl

theorem structuredMembers_eq (members : GraphMembers Number) :
    walk.structuredMembers members =
      members.map fun member => (member.fst, walk.atStructured member.fst member.snd) := by
  induction members with
  | nil => rfl
  | cons member rest ih =>
      rw [GraphWalk.structuredMembers, ih]
      rfl

/-!
## Escaped keys keep their order
-/

theorem arrayIndex?_of_head {unit : UInt16} {rest : ScriptString}
    (h : unit.toNat < 0x30 ∨ 0x39 < unit.toNat) : arrayIndex? (unit :: rest) = none := by
  cases hindex : arrayIndex? (unit :: rest) with
  | none => rfl
  | some index =>
      have hkey := scriptString_of_arrayIndex? hindex
      rw [scriptString, toList_toString_nat] at hkey
      cases hdigits : Nat.toDigits 10 index with
      | nil =>
          rw [hdigits] at hkey
          cases hkey
      | cons c digits =>
          have hdigit : c.isDigit = true := by
            apply Nat.isDigit_of_mem_toDigits (b := 10) (n := index) (by decide) (by decide)
            rw [hdigits]
            exact List.mem_cons_self ..
          have hrange : 0x30 ≤ c.toNat ∧ c.toNat ≤ 0x39 := by
            rw [Char.isDigit, Bool.and_eq_true, decide_eq_true_eq, decide_eq_true_eq] at hdigit
            exact hdigit
          rw [hdigits, List.flatMap_cons, charUnits, if_pos (by omega)] at hkey
          have hunit : unit = UInt16.ofNat c.toNat := by
            injection hkey
          rw [hunit, UInt16.toNat_ofNat', Nat.mod_eq_of_lt (by omega)] at h
          omega

theorem arrayIndex?_escapeKey (key : ScriptString) :
    arrayIndex? (escapeKey key) = arrayIndex? key := by
  have hescape : forall rest, arrayIndex? (escapePrefix ++ rest) = none := by
    intro rest
    have hfirst : escapePrefix = 0 :: escapePrefix.tail := by decide
    rw [hfirst]
    exact arrayIndex?_of_head (Or.inl (by decide))
  rw [escapeKey]
  split
  · next hproto =>
    have hproto' : protoKey = 0x5F :: protoKey.tail := by decide
    rw [beq_iff_eq.mp hproto, hproto', arrayIndex?_of_head (Or.inr (by decide))]
    exact hescape _
  · split
    · next hstarts =>
      rcases List.isPrefixOf_iff_prefix.mp hstarts with ⟨rest, rfl⟩
      rw [hescape, escapedKeyPrefix, List.append_assoc]
      exact hescape _
    · rfl

theorem comesBefore_escapeKey (key other : ScriptString) :
    comesBefore (escapeKey key) (escapeKey other) = comesBefore key other := by
  have hne : (escapeKey key != escapeKey other) = (key != other) := by
    rw [Bool.eq_iff_iff, bne_iff_ne, bne_iff_ne, Ne, Ne, not_iff_not]
    constructor
    · intro h
      rw [← restoreKey_escapeKey key, h, restoreKey_escapeKey]
    · exact congrArg escapeKey
  rw [comesBefore, comesBefore, arrayIndex?_escapeKey, arrayIndex?_escapeKey, hne]

theorem ownOrder_escape {members : List (ScriptString × α)} {f : ScriptString × α -> β}
    (h : OwnOrder members) :
    OwnOrder (members.map fun member => (escapeKey member.fst, f member)) := by
  rw [OwnOrder, List.pairwise_map]
  exact h.imp fun hbefore => by rwa [comesBefore_escapeKey]

end

end Preflight
end Pertexo
