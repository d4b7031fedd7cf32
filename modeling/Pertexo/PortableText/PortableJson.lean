import Pertexo.Portability.Admission
import Pertexo.PortableText.JsonSyntax
import Pertexo.Values.Utf8

/-!
# Portable JSON

A lexical scan runs before the parser, which would lose the first of two members with one
name. A position in the text is given by what follows it.
-/

namespace Pertexo
namespace PortableText

open Canonical
open Library
open Portability
open Values

def portabilityBytes : Nat :=
  2097152

def portabilityInputDepth : Nat :=
  256

inductive PortableJsonError where
  | invalid
  | limit
  deriving DecidableEq, Repr

structure JsonFrame where
  object : Bool
  keys : List ScriptString
  keyExpected : Bool

/-- The length of a string up to its closing quote; a backslash passes over what follows it. -/
def closingQuote : ScriptString -> Option Nat
  | [] => none
  | unit :: rest =>
      if unitChar unit == '"' then some 0
      else if unitChar unit == '\\' then
        match rest with
        | [] => none
        | _ :: following => (closingQuote following).map fun length => length + 2
      else (closingQuote rest).map fun length => length + 1

section

variable {Number : Type} [ScriptNumber Number]

/-- `following` comes after the opening quote; the result is the length to pass over. -/
def inspectJsonString (Number : Type) [ScriptNumber Number] (following : ScriptString)
    (stack : List JsonFrame) : Except PortableJsonError (Nat × List JsonFrame) :=
  match closingQuote following with
  | none => .error .invalid
  | some length =>
      match stack with
      | [] => .ok (length + 1, [])
      | current :: outer =>
          if current.object && current.keyExpected then
            match (parseText (UInt16.ofNat '"'.toNat :: following.take (length + 1)) :
              Option (GraphValue Number)) with
            | some (.string key) =>
                if current.keys.contains key then .error .invalid
                else .ok (length + 1,
                  { current with keys := key :: current.keys, keyExpected := false } :: outer)
            | _ => .error .invalid
          else .ok (length + 1, current :: outer)

def inspectUnit (Number : Type) [ScriptNumber Number] (c : Char) (following : ScriptString)
    (stack : List JsonFrame) : Except PortableJsonError (Nat × List JsonFrame) :=
  if c == '"' then inspectJsonString Number following stack
  else if c == '{' || c == '[' then
    if stack.length + 1 > portabilityInputDepth then .error .limit
    else .ok (0, { object := c == '{', keys := [], keyExpected := true } :: stack)
  else if c == '}' || c == ']' then
    match stack with
    | [] => .error .invalid
    | current :: outer =>
        if current.object != (c == '}') then .error .invalid else .ok (0, outer)
  else if c == ',' then
    match stack with
    | [] => .ok (0, [])
    | current :: outer =>
        .ok (0, (if current.object then { current with keyExpected := true } else current) :: outer)
  else .ok (0, stack)

def inspectUnits (Number : Type) [ScriptNumber Number] :
    ScriptString -> Nat -> List JsonFrame -> Except PortableJsonError (List JsonFrame)
  | [], _, stack => .ok stack
  | _ :: rest, passed + 1, stack => inspectUnits Number rest passed stack
  | unit :: rest, 0, stack => do
      let (passed, inspected) <- inspectUnit Number (unitChar unit) rest stack
      inspectUnits Number rest passed inspected

def inspectJsonText (Number : Type) [ScriptNumber Number] (text : ScriptString) :
    Except PortableJsonError Unit := do
  let stack <- inspectUnits Number text 0 []
  if stack.length ≠ 0 then .error .invalid else .ok ()

def portableLimits : AdmissionLimits where
  graphBytes := portabilityBytes
  inputDepth := portabilityInputDepth
  jsonValueDepth := 64
  structuredDepth := 32

def portableSnapshot (value : GraphValue Number) : Except PortableJsonError (GraphValue Number) :=
  match inspectAdmission portableLimits false value with
  | .ok (snapshot, _) => .ok snapshot
  | .error failure =>
      .error (if failure.code = .graphLimit ∨ failure.code = .jsonValueDepth then .limit
        else .invalid)

def portableByteLength (text : ScriptString) : Nat :=
  (utf8Bytes text).length

def parsePortableJson (text : ScriptString) : Except PortableJsonError (GraphValue Number) :=
  if portableByteLength text > portabilityBytes then .error .limit
  else do
    inspectJsonText Number text
    match parseText text with
    | none => .error .invalid
    | some value => portableSnapshot value

end

end PortableText
end Pertexo
