import Pertexo.Values.JsonText
import Pertexo.Values.Text
import Pertexo.Values.Utf8

/-!
# Parts of requests and responses

## Query parameters

The pairs of a query are read and written as form data.
-/

namespace Pertexo
namespace Values

def asciiUnit (c : Char) : UInt16 :=
  UInt16.ofNat c.toNat

def asciiByte (c : Char) : UInt8 :=
  UInt8.ofNat c.toNat

/-!
## Writing
-/

/-- The bytes that form data keeps as they are. -/
def isFormByte (byte : UInt8) : Bool :=
  let c := Char.ofNat byte.toNat
  c.isAlphanum || ['*', '-', '.', '_'].contains c

def formEncodeByte (byte : UInt8) : ScriptString :=
  if isFormByte byte then [UInt16.ofNat byte.toNat]
  else if byte == asciiByte ' ' then [asciiUnit '+']
  else (percentByte byte).map asciiUnit

def formEncode (text : ScriptString) : ScriptString :=
  (utf8Bytes text).flatMap formEncodeByte

def formPair (name value : ScriptString) : ScriptString :=
  formEncode name ++ asciiUnit '=' :: formEncode value

/-!
## Reading
-/

/-- A percent sign without two hex digits behind it stands for itself. -/
def percentDecode : Bytes -> Bytes
  | [] => []
  | [byte] => [byte]
  | [byte, next] => [byte, next]
  | byte :: high :: low :: rest =>
      match byte == asciiByte '%', hexByteValue high, hexByteValue low with
      | true, some upper, some lower => UInt8.ofNat (upper * 0x10 + lower) :: percentDecode rest
      | _, _, _ => byte :: percentDecode (high :: low :: rest)

def formDecode (bytes : Bytes) : ScriptString :=
  readUtf8 (percentDecode (bytes.map fun byte =>
    if byte == asciiByte '+' then asciiByte ' ' else byte))

def readPair (sequence : Bytes) : ScriptString × ScriptString :=
  let name := sequence.takeWhile fun byte => byte != asciiByte '='
  (formDecode name, formDecode (sequence.drop (name.length + 1)))

/-- The pairs of a query without its question mark. -/
def queryPairs (query : ScriptString) : List (ScriptString × ScriptString) :=
  (((utf8Bytes query).splitOn (asciiByte '&')).filter fun sequence => !sequence.isEmpty).map
    readPair

/-- `new URLSearchParams(text)`: one question mark in front does not count. -/
def searchParams : ScriptString -> List (ScriptString × ScriptString)
  | [] => []
  | unit :: rest =>
      if unit == asciiUnit '?' then queryPairs rest else queryPairs (unit :: rest)

/-!
## Paths into JSON values

A path starts at the root and names own properties and items, one segment after
another.
-/

inductive JsonPathSegment where
  | property (name : ScriptString)
  | index (n : Nat)
deriving DecidableEq, Repr

def apostrophe : Char :=
  Char.ofNat 0x27

def isNameStart (c : Char) : Bool :=
  c.isAlpha || c == '_'

def isNameChar (c : Char) : Bool :=
  c.isAlphanum || c == '_' || c == '-'

/-- The name behind an opening quote, and the text behind its closing bracket. -/
def quotedName (name : List Char) : List Char -> Option (List Char × List Char)
  | [] => none
  | [_] => none
  | c :: next :: rest =>
      if c == apostrophe then
        if next == ']' then some (name.reverse, rest) else none
      else if c == '\\' then
        if next == apostrophe || next == '\\' then quotedName (next :: name) rest else none
      else quotedName (c :: name) (next :: rest)

def propertySegment (name : List Char) : JsonPathSegment :=
  .property (scriptString (String.ofList name))

/-- The digits of an index have no leading zero. -/
def indexSegment (text : List Char) : Option (JsonPathSegment × List Char) :=
  let digits := text.takeWhile Char.isDigit
  match digits, text.drop digits.length with
  | first :: others, ']' :: rest =>
      if first != '0' || others.isEmpty then
        some (.index (Nat.ofDigitChars 10 digits 0), rest)
      else none
  | _, _ => none

def bracketSegment (text : List Char) : Option (JsonPathSegment × List Char) :=
  match indexSegment text with
  | some found => some found
  | none =>
      match text with
      | c :: rest =>
          if c == apostrophe then
            (quotedName [] rest).map fun (name, behind) => (propertySegment name, behind)
          else none
      | [] => none

def dottedSegment (text : List Char) : Option (JsonPathSegment × List Char) :=
  match text.takeWhile isNameChar with
  | first :: others =>
      if isNameStart first then
        some (propertySegment (first :: others), text.drop (others.length + 1))
      else none
  | [] => none

def pathSegment : List Char -> Option (JsonPathSegment × List Char)
  | '.' :: rest => dottedSegment rest
  | '[' :: rest => bracketSegment rest
  | _ => none

/-- Each segment takes a character at least, so that the length of the text is fuel enough. -/
def pathSegments : Nat -> List Char -> Option (List JsonPathSegment)
  | _, [] => some []
  | 0, _ :: _ => none
  | fuel + 1, text => do
      let (segment, rest) ← pathSegment text
      let others ← pathSegments fuel rest
      return segment :: others

def parseJsonPath : List Char -> Option (List JsonPathSegment)
  | '$' :: rest => pathSegments rest.length rest
  | _ => none

section

variable {Number : Type}

inductive JsonPathResolution (Number : Type) where
  | value (value : BoundedJsonValue Number)
  | missing
  | invalidPath (message : String)

def resolveSegment (value : BoundedJsonValue Number) (segment : JsonPathSegment) :
    Option (BoundedJsonValue Number) :=
  match value, segment with
  | .array items, .index n => items[n]?
  | .object members, .property name => members.lookup name
  | _, _ => none

def resolveJsonPath (input : BoundedJsonValue Number) (path : String) :
    JsonPathResolution Number :=
  match parseJsonPath path.toList with
  | none => .invalidPath ("unsupported JSON path " ++ path)
  | some segments =>
      match segments.foldlM resolveSegment input with
      | none => .missing
      | some value => .value value

end

end Values
end Pertexo
