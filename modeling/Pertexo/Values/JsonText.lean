import Pertexo.Values.Encoding
import Pertexo.Values.ScriptStrings

/-!
# Script values as JSON text

## Values

A JSON value is a tree. The members of an object stand in the order in which a
script lists its own keys.
-/

namespace Pertexo
namespace Values

inductive BoundedJsonValue (Number : Type) where
  | null
  | bool (value : Bool)
  | number (value : Number)
  | string (text : ScriptString)
  | array (items : List (BoundedJsonValue Number))
  | object (members : List (ScriptString × BoundedJsonValue Number))

/-!
An unknown value is a script value: an object may refuse to be read, may carry
accessors or symbols, and may occur twice. The members of an object are its own
enumerable keys in the order of a walk; an object that the walk has met before
is `repeated`.
-/

inductive ScriptSlot (α : Type) where
  | hole
  | accessor
  | data (value : α)

inductive NumberValue (Number : Type) where
  | finite (value : Number)
  | negativeZero
  | notFinite

inductive ScriptValue (Number : Type) where
  | null
  | bool (value : Bool)
  | number (value : NumberValue Number)
  | string (text : ScriptString)
  | other
  | unreadable
  | repeated
  | array (hasSymbols : Bool) (otherKeys : Nat) (items : List (ScriptSlot (ScriptValue Number)))
  | object (isPlain hasSymbols : Bool)
      (members : List (ScriptString × ScriptSlot (ScriptValue Number)))

section

variable {Number : Type}

/-- An array with nothing but its items. -/
def plainArray (items : List (ScriptSlot (ScriptValue Number))) : ScriptValue Number :=
  .array false 0 items

def plainObject (members : List (ScriptString × ScriptSlot (ScriptValue Number))) :
    ScriptValue Number :=
  .object true false members

mutual

def BoundedJsonValue.script : BoundedJsonValue Number -> ScriptValue Number
  | .null => .null
  | .bool value => .bool value
  | .number value => .number (.finite value)
  | .string text => .string text
  | .array items => plainArray (scriptItems items)
  | .object members => plainObject (scriptMembers members)

def scriptItems : List (BoundedJsonValue Number) -> List (ScriptSlot (ScriptValue Number))
  | [] => []
  | item :: rest => .data item.script :: scriptItems rest

def scriptMembers : List (ScriptString × BoundedJsonValue Number) ->
    List (ScriptString × ScriptSlot (ScriptValue Number))
  | [] => []
  | (name, value) :: rest => (name, .data value.script) :: scriptMembers rest

end

end

/-!
## Number literals

The phases of reading a JSON number literal, one character at a time.
-/

inductive NumberPhase where
  | start
  | minus
  | zero
  | integer
  | point
  | fraction
  | exponent
  | sign
  | power
deriving DecidableEq, Repr

def isExponentMark (c : Char) : Bool :=
  c == 'e' || c == 'E'

def numberStep (phase : NumberPhase) (c : Char) : Option NumberPhase :=
  match phase with
  | .start =>
      if c == '-' then some .minus
      else if c == '0' then some .zero
      else if c.isDigit then some .integer
      else none
  | .minus =>
      if c == '0' then some .zero
      else if c.isDigit then some .integer
      else none
  | .zero =>
      if c == '.' then some .point
      else if isExponentMark c then some .exponent
      else none
  | .integer =>
      if c.isDigit then some .integer
      else if c == '.' then some .point
      else if isExponentMark c then some .exponent
      else none
  | .point => if c.isDigit then some .fraction else none
  | .fraction =>
      if c.isDigit then some .fraction
      else if isExponentMark c then some .exponent
      else none
  | .exponent =>
      if c == '+' || c == '-' then some .sign
      else if c.isDigit then some .power
      else none
  | .sign => if c.isDigit then some .power else none
  | .power => if c.isDigit then some .power else none

def NumberPhase.isComplete : NumberPhase -> Bool
  | .zero => true
  | .integer => true
  | .fraction => true
  | .power => true
  | _ => false

def isNumberLiteral (text : List Char) : Bool :=
  match text.foldlM numberStep .start with
  | some phase => phase.isComplete
  | none => false

/-- The finite numbers of a script other than negative zero, with the text that
the serializer writes for each and the number that the parser reads from a
literal, which may be too large for a finite one. -/
class ScriptNumber (Number : Type) where
  zero : Number
  text : Number -> List Char
  read : List Char -> NumberValue Number
  isNumberLiteral_text : forall n : Number, isNumberLiteral (text n) = true
  read_text : forall n : Number, read (text n) = .finite n

/-!
## Own keys

The own keys of an object start with its array indices in increasing order; the
other keys follow in the order in which they were added.
-/

def digitValue (unit : UInt16) : Nat :=
  unit.toNat - 0x30

/-- The array index that a key spells, if the key is the text of one. -/
def arrayIndex? (key : ScriptString) : Option Nat :=
  let index := key.foldl (fun value unit => value * 10 + digitValue unit) 0
  if key == scriptString (toString index) && decide (index < 2 ^ 32 - 1) then some index else none

def comesBefore (name key : ScriptString) : Bool :=
  match arrayIndex? name, arrayIndex? key with
  | some left, some right => decide (left < right)
  | some _, none => true
  | none, some _ => false
  | none, none => name != key

def defineProperty (key : ScriptString) (value : α) :
    List (ScriptString × α) -> List (ScriptString × α)
  | [] => [(key, value)]
  | (name, old) :: rest =>
      if name == key then (name, value) :: rest
      else if comesBefore name key then (name, old) :: defineProperty key value rest
      else (key, value) :: (name, old) :: rest

/-!
## Serializing
-/

def unicodeEscape (n : Nat) : List Char :=
  ['\\', 'u', Nat.digitChar (n / 0x1000), Nat.digitChar (n / 0x100 % 0x10),
    Nat.digitChar (n / 0x10 % 0x10), Nat.digitChar (n % 0x10)]

def codePointText : CodePoint -> List Char
  | .char c => jsonCharText c
  | .lone unit => unicodeEscape unit.toNat

def quoteText (text : ScriptString) : List Char :=
  '"' :: (codePoints text).flatMap codePointText ++ ['"']

def commaJoin : List (List Char) -> List Char
  | [] => []
  | [text] => text
  | text :: next :: rest => text ++ ',' :: commaJoin (next :: rest)

section

variable {Number : Type} [ScriptNumber Number]

mutual

def stringify : BoundedJsonValue Number -> List Char
  | .null => "null".toList
  | .bool value => if value then "true".toList else "false".toList
  | .number value => ScriptNumber.text value
  | .string text => quoteText text
  | .array items => '[' :: commaJoin (stringifyItems items) ++ [']']
  | .object members => '{' :: commaJoin (stringifyMembers members) ++ ['}']

def stringifyItems : List (BoundedJsonValue Number) -> List (List Char)
  | [] => []
  | item :: rest => stringify item :: stringifyItems rest

def stringifyMembers : List (ScriptString × BoundedJsonValue Number) -> List (List Char)
  | [] => []
  | (name, value) :: rest => (quoteText name ++ ':' :: stringify value) :: stringifyMembers rest

end

/-!
## Parsing

The parser is a machine that reads one character at a time. Its stack holds the
arrays and objects that are still open, with what they hold so far.
-/

inductive TextMode where
  | plain
  | escape
  | unicode (digits : List Nat)
deriving DecidableEq, Repr

inductive ParseMode (Number : Type) where
  | value
  | firstItem
  | firstMember
  | member
  | colon (name : ScriptString)
  | done (value : ScriptValue Number)
  | literal (rest : List Char) (value : ScriptValue Number)
  | number (phase : NumberPhase) (text : List Char)
  | text (isName : Bool) (mode : TextMode) (units : ScriptString)

inductive ParseFrame (Number : Type) where
  | array (items : List (ScriptSlot (ScriptValue Number)))
  | object (members : List (ScriptString × ScriptSlot (ScriptValue Number)))
  | member (members : List (ScriptString × ScriptSlot (ScriptValue Number))) (name : ScriptString)

structure ParseState (Number : Type) where
  mode : ParseMode Number
  stack : List (ParseFrame Number)

def isJsonSpace (c : Char) : Bool :=
  c == ' ' || c == '\t' || c == '\n' || c == '\r'

def startValue (stack : List (ParseFrame Number)) (c : Char) : Option (ParseState Number) :=
  if c == '"' then some { mode := .text false .plain [], stack }
  else if c == '[' then some { mode := .firstItem, stack := .array [] :: stack }
  else if c == '{' then some { mode := .firstMember, stack := .object [] :: stack }
  else if c == 'n' then some { mode := .literal "ull".toList .null, stack }
  else if c == 't' then some { mode := .literal "rue".toList (.bool true), stack }
  else if c == 'f' then some { mode := .literal "alse".toList (.bool false), stack }
  else (numberStep .start c).map fun phase => { mode := .number phase [c], stack }

/-- The character after a value ends the value's array or object, or goes on with it. -/
def afterValue (value : ScriptValue Number) (stack : List (ParseFrame Number)) (c : Char) :
    Option (ParseState Number) :=
  if isJsonSpace c then some { mode := .done value, stack }
  else
    match stack with
    | .array items :: outer =>
        let added := items ++ [.data value]
        if c == ',' then some { mode := .value, stack := .array added :: outer }
        else if c == ']' then some { mode := .done (plainArray added), stack := outer }
        else none
    | .member members name :: outer =>
        let defined := defineProperty name (.data value) members
        if c == ',' then some { mode := .member, stack := .object defined :: outer }
        else if c == '}' then some { mode := .done (plainObject defined), stack := outer }
        else none
    | _ => none

def textStep (isName : Bool) (mode : TextMode) (units : ScriptString)
    (stack : List (ParseFrame Number)) (c : Char) : Option (ParseState Number) :=
  let unescaped : Char -> Option (ParseState Number) := fun unit =>
    some { mode := .text isName .plain (units ++ charUnits unit), stack }
  match mode with
  | .plain =>
      if c == '"' then
        some { mode := if isName then .colon units else .done (.string units), stack }
      else if c == '\\' then some { mode := .text isName .escape units, stack }
      else if c.toNat <= 0x1f then none
      else unescaped c
  | .escape =>
      if c == '"' || c == '\\' || c == '/' then unescaped c
      else if c == 'b' then unescaped '\x08'
      else if c == 'f' then unescaped '\x0c'
      else if c == 'n' then unescaped '\n'
      else if c == 'r' then unescaped '\r'
      else if c == 't' then unescaped '\t'
      else if c == 'u' then some { mode := .text isName (.unicode []) units, stack }
      else none
  | .unicode digits =>
      (hexDigitValue c).map fun digit =>
        match digits with
        | [first, second, third] =>
            let unit := UInt16.ofNat (((first * 16 + second) * 16 + third) * 16 + digit)
            { mode := .text isName .plain (units ++ [unit]), stack }
        | _ => { mode := .text isName (.unicode (digits ++ [digit])) units, stack }

def parseStep (state : ParseState Number) (c : Char) : Option (ParseState Number) :=
  let stack := state.stack
  match state.mode with
  | .value => if isJsonSpace c then some state else startValue stack c
  | .firstItem =>
      if isJsonSpace c then some state
      else if c == ']' then
        match stack with
        | .array items :: outer => some { mode := .done (plainArray items), stack := outer }
        | _ => none
      else startValue stack c
  | .firstMember =>
      if isJsonSpace c then some state
      else if c == '}' then
        match stack with
        | .object members :: outer =>
            some { mode := .done (plainObject members), stack := outer }
        | _ => none
      else if c == '"' then some { mode := .text true .plain [], stack }
      else none
  | .member =>
      if isJsonSpace c then some state
      else if c == '"' then some { mode := .text true .plain [], stack }
      else none
  | .colon name =>
      if isJsonSpace c then some state
      else if c == ':' then
        match stack with
        | .object members :: outer =>
            some { mode := .value, stack := .member members name :: outer }
        | _ => none
      else none
  | .done value => afterValue value stack c
  | .literal rest value =>
      match rest with
      | [] => none
      | [last] => if c == last then some { mode := .done value, stack } else none
      | next :: rest => if c == next then some { mode := .literal rest value, stack } else none
  | .number phase text =>
      match numberStep phase c with
      | some phase => some { mode := .number phase (text ++ [c]), stack }
      | none =>
          if phase.isComplete then afterValue (.number (ScriptNumber.read text)) stack c else none
  | .text isName mode units => textStep isName mode units stack c

def parseResult (state : ParseState Number) : Option (ScriptValue Number) :=
  match state.stack, state.mode with
  | [], .done value => some value
  | [], .number phase text =>
      if phase.isComplete then some (.number (ScriptNumber.read text)) else none
  | _, _ => none

def parseJson (text : List Char) : Option (ScriptValue Number) :=
  text.foldlM parseStep { mode := .value, stack := [] } >>= parseResult

end

/-!
## Natural numbers as script numbers

The text of a natural number is its decimal digits, without a leading zero.
-/

theorem numberStep_digit {c : Char} (h : c.isDigit = true) :
    numberStep .integer c = some .integer := by
  simp [numberStep, h]

theorem foldlM_numberStep_toDigits (n : Nat) :
    (Nat.toDigits 10 n).foldlM numberStep .start =
      some (if n = 0 then .zero else .integer) := by
  induction n using Nat.strongRecOn with
  | ind n ih =>
      by_cases hsmall : n < 10
      · have hall : forall digit : Fin 10,
            (Nat.toDigits 10 digit.val).foldlM numberStep .start =
              some (if digit.val = 0 then .zero else .integer) := by
          decide
        exact hall ⟨n, hsmall⟩
      · have hdigit : (Nat.digitChar (n % 10)).isDigit = true := by
          have hall : forall digit : Fin 10, (Nat.digitChar digit.val).isDigit = true := by
            decide
          exact hall ⟨n % 10, by omega⟩
        rw [Nat.toDigits_of_base_le (by decide) (by omega), List.foldlM_append,
          ih (n / 10) (by omega), if_neg (by omega), if_neg (by omega)]
        simp [numberStep_digit hdigit]

instance : ScriptNumber Nat where
  zero := 0
  text := Nat.toDigits 10
  read := fun text => .finite (Nat.ofDigitChars 10 text 0)
  isNumberLiteral_text := by
    intro n
    rw [isNumberLiteral, foldlM_numberStep_toDigits]
    by_cases hzero : n = 0
    · rw [if_pos hzero]
      rfl
    · rw [if_neg hzero]
      rfl
  read_text := by
    intro n
    simp

end Values
end Pertexo
