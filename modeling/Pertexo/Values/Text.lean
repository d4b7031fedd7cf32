import Mathlib.Algebra.GroupWithZero.Nat
import Pertexo.Library.Sorting

/-!
# Text values

Identifiers, keys and messages are strings. Their order is the order of their
UTF-16 code units, and their length is the number of those units.
-/

namespace Pertexo
namespace Values

open Library

def utf16Units (text : String) : List Nat :=
  text.toList.flatMap fun c =>
    if c.toNat < 0x10000 then [c.toNat]
    else
      [0xD800 + (c.toNat - 0x10000) / 0x400, 0xDC00 + (c.toNat - 0x10000) % 0x400]

def utf16Length (text : String) : Nat :=
  (utf16Units text).length

def compareOrdinal (left right : String) : Ordering :=
  if utf16Units left < utf16Units right then Ordering.lt
  else if utf16Units right < utf16Units left then Ordering.gt
  else Ordering.eq

def sortOrdinal (texts : List String) : List String :=
  sortWith compareOrdinal texts

/-!
# Percent encoding

`encodeURIComponent` keeps the unreserved characters and writes every
other character as the percent-encoded bytes of its UTF-8 form.
-/

def isUnreserved (c : Char) : Bool :=
  c.isAlphanum || "-_.!~*'()".toList.contains c

def hexDigit (digit : Nat) : Char :=
  "0123456789ABCDEF".toList.getD digit '0'

def hexDigitValue (c : Char) : Option Nat :=
  if c.isDigit then some (c.toNat - 0x30)
  else if 'a' <= c && c <= 'f' then some (c.toNat - 0x61 + 10)
  else if 'A' <= c && c <= 'F' then some (c.toNat - 0x41 + 10)
  else none

theorem hexDigitValue_eq_some {c : Char} {digit : Nat} (h : hexDigitValue c = some digit) :
    c.toNat < 128 ∧ digit < 16 := by
  have hends : '9'.toNat = 57 ∧ 'f'.toNat = 102 ∧ 'F'.toNat = 70 := by decide
  unfold hexDigitValue at h
  split at h
  · next hdigit =>
    have hle : c.toNat ≤ 57 := by
      simpa [Char.isDigit, UInt32.le_iff_toNat_le] using (Bool.and_eq_true_iff.mp hdigit).right
    cases h
    omega
  · split at h
    · next hlower =>
      have hle : c.toNat ≤ 'f'.toNat := of_decide_eq_true (Bool.and_eq_true_iff.mp hlower).right
      cases h
      omega
    · split at h
      · next hupper =>
        have hle : c.toNat ≤ 'F'.toNat := of_decide_eq_true (Bool.and_eq_true_iff.mp hupper).right
        cases h
        omega
      · cases h

def percentByte (byte : UInt8) : List Char :=
  ['%', hexDigit (byte.toNat / 16), hexDigit (byte.toNat % 16)]

def encodeURIComponent (text : String) : String :=
  String.ofList <| text.toList.flatMap fun c =>
    if isUnreserved c then [c]
    else (String.utf8EncodeChar c).flatMap percentByte

/-!
# JSON text lengths

The byte length of a string as JSON text includes the quotes and the escapes.
-/

def shortJsonEscapes : List Char :=
  ['"', '\\', '\x08', '\x0c', '\n', '\r', '\t']

def jsonCharByteLength (c : Char) : Nat :=
  if shortJsonEscapes.contains c then 2
  else if c.toNat <= 0x1f then 6
  else c.utf8Size

def jsonStringByteLength (text : String) : Nat :=
  2 + (text.toList.map jsonCharByteLength).sum

/-!
# Identifiers
-/

def isLowerHex (c : Char) : Bool :=
  c.isDigit || ('a' <= c && c <= 'f')

/-- The pattern of a canonical UUID of versions 1 to 8. -/
def isUuid (text : String) : Bool :=
  let chars := text.toList
  chars.length == 36 &&
    (List.range 36).all fun index =>
      let c := chars.getD index ' '
      if index == 8 || index == 13 || index == 18 || index == 23 then c == '-'
      else if index == 14 then '1' <= c && c <= '8'
      else if index == 19 then "89ab".toList.contains c
      else isLowerHex c

def padStart (width : Nat) (fill : Char) (text : String) : String :=
  String.ofList (List.replicate (width - text.toList.length) fill) ++ text

/-!
## JSON values

Numbers are carried as the text the serializer writes for them.
-/

mutual

inductive JsonValue where
  | null
  | bool (value : Bool)
  | number (text : String)
  | string (text : String)
  | array (items : List JsonValue)
  | object (members : List JsonMember)

inductive JsonMember where
  | mk (name : String) (value : JsonValue)

end

def JsonMember.name : JsonMember -> String
  | .mk name _ => name

def JsonMember.value : JsonMember -> JsonValue
  | .mk _ value => value

def JsonValue.field? (value : JsonValue) (name : String) : Option JsonValue :=
  match value with
  | .object members => (members.find? fun member => member.name == name).map JsonMember.value
  | _ => none

def JsonValue.isRecord : JsonValue -> Bool
  | .object _ => true
  | _ => false

/-- Every member is allowed and every required member is present. -/
def JsonValue.hasExactFields (value : JsonValue) (required optional : List String) : Bool :=
  match value with
  | .object members =>
      members.all (fun member => (required ++ optional).contains member.name) &&
        required.all fun name => members.any fun member => member.name == name
  | _ => false

/-!
# Canonical text

Canonical JSON text sorts the members of every object by name.
-/

def jsonControlEscape (c : Char) : List Char :=
  "\\u00".toList ++ [if c.toNat < 0x10 then '0' else '1',
    "0123456789abcdef".toList.getD (c.toNat % 16) '0']

def jsonCharText (c : Char) : List Char :=
  if c == '"' then "\\\"".toList
  else if c == '\\' then "\\\\".toList
  else if c == '\x08' then "\\b".toList
  else if c == '\x0c' then "\\f".toList
  else if c == '\n' then "\\n".toList
  else if c == '\r' then "\\r".toList
  else if c == '\t' then "\\t".toList
  else if c.toNat <= 0x1f then jsonControlEscape c
  else [c]

def jsonStringText (text : String) : String :=
  "\"" ++ String.ofList (text.toList.flatMap jsonCharText) ++ "\""

mutual

def canonicalJson : JsonValue -> String
  | .null => "null"
  | .bool value => if value then "true" else "false"
  | .number text => text
  | .string text => jsonStringText text
  | .array items => "[" ++ ",".intercalate (canonicalItems items) ++ "]"
  | .object members =>
      let sorted := sortWith (fun left right => compareOrdinal left.fst right.fst)
        (canonicalMembers members)
      "\x7b" ++
        ",".intercalate (sorted.map fun pair => jsonStringText pair.fst ++ ":" ++ pair.snd) ++
        "\x7d"

def canonicalItems : List JsonValue -> List String
  | [] => []
  | item :: rest => canonicalJson item :: canonicalItems rest

def canonicalMembers : List JsonMember -> List (String × String)
  | [] => []
  | .mk name value :: rest => (name, canonicalJson value) :: canonicalMembers rest

end

end Values
end Pertexo
