import Pertexo.Canonical.Normalization
import Pertexo.Portability.GraphSchema
import Pertexo.Values.BoundedJson

/-!
# JSON texts as syntax trees

A text is read unit by unit as the syntax tree of a JSON value, in which the members of
an object stand as the text has them. Its value defines them one after the other, so that
the last of two members with one name stays.
-/

namespace Pertexo
namespace PortableText

open Canonical
open Portability
open Values

inductive ReadMode (Number : Type) where
  | value
  | firstItem
  | firstMember
  | member
  | colon (name : ScriptString)
  | done (tree : GraphValue Number)
  | literal (rest : List Char) (tree : GraphValue Number)
  | number (phase : NumberPhase) (text : List Char)
  | text (isName : Bool) (mode : TextMode) (units : ScriptString)

inductive ReadFrame (Number : Type) where
  | array (items : List (GraphValue Number))
  | object (members : GraphMembers Number)
  | member (members : GraphMembers Number) (name : ScriptString)

structure ReadState (Number : Type) where
  mode : ReadMode Number
  stack : List (ReadFrame Number)

section

variable {Number : Type}

/-- The character of a unit; no character of the grammar is half of a surrogate pair. -/
def unitChar (unit : UInt16) : Char :=
  Char.ofNat unit.toNat

def startTree (stack : List (ReadFrame Number)) (c : Char) : Option (ReadState Number) :=
  if c == '"' then some { mode := .text false .plain [], stack }
  else if c == '[' then some { mode := .firstItem, stack := .array [] :: stack }
  else if c == '{' then some { mode := .firstMember, stack := .object [] :: stack }
  else if c == 'n' then some { mode := .literal "ull".toList .null, stack }
  else if c == 't' then some { mode := .literal "rue".toList (.bool true), stack }
  else if c == 'f' then some { mode := .literal "alse".toList (.bool false), stack }
  else (numberStep .start c).map fun phase => { mode := .number phase [c], stack }

/-- What follows a value ends its array or object, or goes on with it. -/
def afterTree (tree : GraphValue Number) (stack : List (ReadFrame Number)) (c : Char) :
    Option (ReadState Number) :=
  if isJsonSpace c then some { mode := .done tree, stack }
  else
    match stack with
    | .array items :: outer =>
        let added := items ++ [tree]
        if c == ',' then some { mode := .value, stack := .array added :: outer }
        else if c == ']' then some { mode := .done (.array added), stack := outer }
        else none
    | .member members name :: outer =>
        let added := members ++ [(name, tree)]
        if c == ',' then some { mode := .member, stack := .object added :: outer }
        else if c == '}' then some { mode := .done (.object added), stack := outer }
        else none
    | _ => none

/-- The unit that a short escape stands for. -/
def shortEscape (c : Char) : Option UInt16 :=
  if c == '"' || c == '\\' || c == '/' then some (UInt16.ofNat c.toNat)
  else if c == 'b' then some 0x8
  else if c == 'f' then some 0xC
  else if c == 'n' then some 0xA
  else if c == 'r' then some 0xD
  else if c == 't' then some 0x9
  else none

inductive TextStep where
  | more (mode : TextMode) (units : ScriptString)
  | close

def readText (mode : TextMode) (units : ScriptString) (unit : UInt16) : Option TextStep :=
  match mode with
  | .plain =>
      if unitChar unit == '"' then some .close
      else if unitChar unit == '\\' then some (.more .escape units)
      else if unit.toNat ≤ 0x1f then none
      else some (.more .plain (units ++ [unit]))
  | .escape =>
      if unitChar unit == 'u' then some (.more (.unicode []) units)
      else (shortEscape (unitChar unit)).map fun escaped => .more .plain (units ++ [escaped])
  | .unicode digits =>
      (hexDigitValue (unitChar unit)).map fun digit =>
        match digits with
        | [first, second, third] =>
            .more .plain
              (units ++ [UInt16.ofNat (((first * 16 + second) * 16 + third) * 16 + digit)])
        | _ => .more (.unicode (digits ++ [digit])) units

variable [ScriptNumber Number]

def readUnit (state : ReadState Number) (unit : UInt16) : Option (ReadState Number) :=
  let stack := state.stack
  let c := unitChar unit
  match state.mode with
  | .value => if isJsonSpace c then some state else startTree stack c
  | .firstItem =>
      if isJsonSpace c then some state
      else if c == ']' then
        match stack with
        | .array items :: outer => some { mode := .done (.array items), stack := outer }
        | _ => none
      else startTree stack c
  | .firstMember =>
      if isJsonSpace c then some state
      else if c == '}' then
        match stack with
        | .object members :: outer => some { mode := .done (.object members), stack := outer }
        | _ => none
      else if c == '"' then some { mode := .text true .plain [], stack }
      else none
  | .member =>
      if isJsonSpace c then some state
      else if c == '"' then some { mode := .text true .plain [], stack }
      else none
  | .colon name =>
      if isJsonSpace c then some state
      else if c == ':' then
        match stack with
        | .object members :: outer =>
            some { mode := .value, stack := .member members name :: outer }
        | _ => none
      else none
  | .done tree => afterTree tree stack c
  | .literal rest tree =>
      match rest with
      | [] => none
      | [last] => if c == last then some { mode := .done tree, stack } else none
      | next :: rest => if c == next then some { mode := .literal rest tree, stack } else none
  | .number phase text =>
      match numberStep phase c with
      | some phase => some { mode := .number phase (text ++ [c]), stack }
      | none =>
          if phase.isComplete then afterTree (.number (ScriptNumber.read text)) stack c else none
  | .text isName mode units =>
      (readText mode units unit).map fun step =>
        match step with
        | .more mode units => { mode := .text isName mode units, stack }
        | .close => { mode := if isName then .colon units else .done (.string units), stack }

def readResult (state : ReadState Number) : Option (GraphValue Number) :=
  match state.stack, state.mode with
  | [], .done tree => some tree
  | [], .number phase text =>
      if phase.isComplete then some (.number (ScriptNumber.read text)) else none
  | _, _ => none

def readUnits (state : ReadState Number) (text : ScriptString) : Option (ReadState Number) :=
  text.foldlM readUnit state

def readJson (text : ScriptString) : Option (GraphValue Number) :=
  (readUnits { mode := .value, stack := [] } text).bind readResult

end

/-!
## Values of trees
-/

section

variable {Number : Type}

mutual

def evaluate : GraphValue Number -> GraphValue Number
  | .array items => .array (evaluateItems items)
  | .object members => .object (buildObject (evaluateMembers members))
  | .null => .null
  | .bool value => .bool value
  | .number value => .number value
  | .string text => .string text

def evaluateItems : List (GraphValue Number) -> List (GraphValue Number)
  | [] => []
  | item :: rest => evaluate item :: evaluateItems rest

def evaluateMembers : GraphMembers Number -> GraphMembers Number
  | [] => []
  | (name, value) :: rest => (name, evaluate value) :: evaluateMembers rest

end

def parseText [ScriptNumber Number] (text : ScriptString) : Option (GraphValue Number) :=
  (readJson text).map evaluate

mutual

/-- How deep the arrays and objects of a tree are nested. -/
def nesting : GraphValue Number -> Nat
  | .array items => nestingOfItems items + 1
  | .object members => nestingOfMembers members + 1
  | .null => 0
  | .bool _ => 0
  | .number _ => 0
  | .string _ => 0

def nestingOfItems : List (GraphValue Number) -> Nat
  | [] => 0
  | item :: rest => max (nesting item) (nestingOfItems rest)

def nestingOfMembers : GraphMembers Number -> Nat
  | [] => 0
  | (_, value) :: rest => max (nesting value) (nestingOfMembers rest)

end

mutual

/-- No object of a tree has two members of one name. -/
def DistinctNames : GraphValue Number -> Prop
  | .array items => DistinctInItems items
  | .object members => (members.map Prod.fst).Nodup ∧ DistinctInMembers members
  | .null => True
  | .bool _ => True
  | .number _ => True
  | .string _ => True

def DistinctInItems : List (GraphValue Number) -> Prop
  | [] => True
  | item :: rest => DistinctNames item ∧ DistinctInItems rest

def DistinctInMembers : GraphMembers Number -> Prop
  | [] => True
  | (_, value) :: rest => DistinctNames value ∧ DistinctInMembers rest

end

theorem distinctInItems_iff {items : List (GraphValue Number)} :
    DistinctInItems items ↔ forall item, item ∈ items -> DistinctNames item := by
  induction items with
  | nil => simp [DistinctInItems]
  | cons item rest ih => simp [DistinctInItems, ih]

theorem distinctInMembers_iff {members : GraphMembers Number} :
    DistinctInMembers members ↔ forall member, member ∈ members -> DistinctNames member.snd := by
  induction members with
  | nil => simp [DistinctInMembers]
  | cons member rest ih => simp [DistinctInMembers, ih]

theorem nestingOfItems_le {items : List (GraphValue Number)} {bound : Nat} :
    nestingOfItems items ≤ bound ↔ forall item, item ∈ items -> nesting item ≤ bound := by
  induction items with
  | nil => simp [nestingOfItems]
  | cons item rest ih => simp [nestingOfItems, ih]

theorem nestingOfMembers_le {members : GraphMembers Number} {bound : Nat} :
    nestingOfMembers members ≤ bound ↔
      forall member, member ∈ members -> nesting member.snd ≤ bound := by
  induction members with
  | nil => simp [nestingOfMembers]
  | cons member rest ih => simp [nestingOfMembers, ih]

end

end PortableText
end Pertexo
