import Pertexo.Values.JsonText
import Pertexo.Values.Utf8

/-!
# Sensitive patterns and decoded bodies

## Bytes of script strings
-/

namespace Pertexo
namespace Redaction

open Library
open Values

def latin1Bytes (text : ScriptString) : Bytes :=
  text.map fun unit => UInt8.ofNat unit.toNat

/-- The characters of a text whose lone surrogates are replaced. -/
def wellFormedChars (text : ScriptString) : List Char :=
  (codePoints text).map fun point =>
    match point with
    | .char c => c
    | .lone _ => Char.ofNat 0xFFFD

/-!
## Base64
-/

def isBase64Unit (unit : UInt16) : Bool :=
  let folded := foldUnit unit
  (0x61 <= folded && folded <= 0x7A) || (0x30 <= unit && unit <= 0x39) || unit == 0x2B ||
    unit == 0x2F

/-- What follows the name of the Basic scheme. -/
def basicCredentials (value : ScriptString) : Option ScriptString :=
  let credentials := value.drop 6
  let padding := credentials.dropWhile isBase64Unit
  if (value.take 6).map foldUnit == scriptString "basic " &&
      credentials.head?.any isBase64Unit && padding.length <= 2 &&
      padding.all (fun unit => unit == 0x3D) then
    some credentials
  else none

def sextet? (unit : UInt16) : Option Nat :=
  if 0x41 <= unit && unit <= 0x5A then some (unit.toNat - 0x41)
  else if 0x61 <= unit && unit <= 0x7A then some (unit.toNat - 0x61 + 26)
  else if 0x30 <= unit && unit <= 0x39 then some (unit.toNat - 0x30 + 52)
  else if unit == 0x2B || unit == 0x2D then some 62
  else if unit == 0x2F || unit == 0x5F then some 63
  else none

def sextetBytes : List Nat -> Bytes
  | a :: b :: c :: d :: rest =>
      UInt8.ofNat (a * 4 + b / 16) :: UInt8.ofNat (b % 16 * 16 + c / 4) ::
        UInt8.ofNat (c % 4 * 64 + d) :: sextetBytes rest
  | [a, b, c] => [UInt8.ofNat (a * 4 + b / 16), UInt8.ofNat (b % 16 * 16 + c / 4)]
  | [a, b] => [UInt8.ofNat (a * 4 + b / 16)]
  | _ => []

/-- Units outside the alphabet are skipped, the padding among them. -/
def base64Decode (text : ScriptString) : Bytes :=
  sextetBytes (text.filterMap sextet?)

def base64Digit (url : Bool) (sextet : Nat) : Char :=
  if sextet < 26 then Char.ofNat (0x41 + sextet)
  else if sextet < 52 then Char.ofNat (0x61 + (sextet - 26))
  else if sextet < 62 then Char.ofNat (0x30 + (sextet - 52))
  else if sextet == 62 then (if url then '-' else '+')
  else (if url then '_' else '/')

def base64Encode (url : Bool) : Bytes -> List Char
  | a :: b :: c :: rest =>
      base64Digit url (a.toNat / 4) :: base64Digit url (a.toNat % 4 * 16 + b.toNat / 16) ::
        base64Digit url (b.toNat % 16 * 4 + c.toNat / 64) :: base64Digit url (c.toNat % 64) ::
        base64Encode url rest
  | [a, b] =>
      [base64Digit url (a.toNat / 4), base64Digit url (a.toNat % 4 * 16 + b.toNat / 16),
        base64Digit url (b.toNat % 16 * 4)] ++ if url then [] else ['=']
  | [a] =>
      [base64Digit url (a.toNat / 4), base64Digit url (a.toNat % 4 * 16)] ++
        if url then [] else ['=', '=']
  | [] => []

/-!
## Forms of a value
-/

def charsText (chars : List Char) : ScriptString :=
  chars.flatMap charUnits

def hexDigits (upper : Bool) (width n : Nat) : List Char :=
  (List.range width).reverse.map fun place =>
    let digit := n / 16 ^ place % 16
    if upper then hexDigit digit else Nat.digitChar digit

def percentForm (upper : Bool) (bytes : Bytes) : List Char :=
  bytes.flatMap fun byte => '%' :: hexDigits upper 2 byte.toNat

def unicodeForm (upper : Bool) (text : ScriptString) : List Char :=
  text.flatMap fun unit => '\\' :: 'u' :: hexDigits upper 4 unit.toNat

def percentEncode (keeps : Char -> Bool) (chars : List Char) : List Char :=
  chars.flatMap fun c =>
    if keeps c then [c] else (String.utf8EncodeChar c).flatMap percentByte

def isReservedInUri (c : Char) : Bool :=
  ";/?:@&=+$,#".toList.contains c

def isKeptInForm (c : Char) : Bool :=
  c.isAlphanum || "*-._".toList.contains c

/-- The value as a form field: a space is written as a plus sign. -/
def formEncode (chars : List Char) : List Char :=
  chars.flatMap fun c =>
    if c == ' ' then ['+'] else percentEncode isKeptInForm [c]

/-- The field-value bytes that the HTTP client accepts. -/
def isSupportedHttpFieldValue (value : ScriptString) : Bool :=
  !value.isEmpty && value.all fun unit =>
    unit == 0x09 || (0x20 <= unit && unit <= 0x7E) || (0x80 <= unit && unit <= 0xFF)

def sensitiveForms (original : ScriptString) : List ScriptString :=
  let text := wellFormedChars original
  let bytes := utf8Bytes original
  [original,
    charsText ((codePoints original).flatMap codePointText),
    charsText (unicodeForm false original),
    charsText (unicodeForm true original),
    charsText (percentEncode (fun c => isUnreserved c || isReservedInUri c) text),
    charsText (percentEncode isUnreserved text),
    charsText (formEncode text),
    charsText (percentForm false bytes),
    charsText (percentForm true bytes),
    charsText (base64Encode false bytes),
    charsText (base64Encode true bytes)] ++
    if isSupportedHttpFieldValue original then
      [charsText (base64Encode false (latin1Bytes original))]
    else []

/-- The value, and for Basic credentials the user with the password and the password. -/
def sensitiveOriginals (value : ScriptString) : List ScriptString :=
  match basicCredentials value with
  | none => [value]
  | some basic =>
      let decoded := readUtf8 (base64Decode basic)
      [value, basic, decoded] ++
        if decoded.contains 0x3A then [(decoded.dropWhile fun unit => unit != 0x3A).drop 1]
        else []

/-- Common service echo representations, longest first. -/
def sensitiveRepresentations (values : List ScriptString) : List ScriptString :=
  let representations := (values.flatMap sensitiveOriginals).flatMap fun original =>
    if original.isEmpty then [] else sensitiveForms original
  sortWith (fun left right => compare right.length left.length) representations.eraseDups

/-- The bytes of the forms; a header value may be echoed as its wire bytes. -/
def prepareSensitiveBytePatterns (values : List ScriptString) : List Bytes :=
  let patterns := (sensitiveRepresentations values).flatMap fun value =>
    let text := utf8Bytes value
    if isSupportedHttpFieldValue value && text != latin1Bytes value then
      [text, latin1Bytes value]
    else [text]
  sortWith (fun left right => compare right.length left.length) patterns

/-!
## Escapes
-/

inductive EscapeFormat where
  | json
  | percent
deriving DecidableEq, Repr

def EscapeFormat.marker : EscapeFormat -> UInt8
  | .json => 92
  | .percent => 37

def unitOfHex (a b c d : UInt8) : Option UInt16 := do
  let a ← hexByteValue a
  let b ← hexByteValue b
  let c ← hexByteValue c
  let d ← hexByteValue d
  pure (UInt16.ofNat (((a * 16 + b) * 16 + c) * 16 + d))

/-- The unit of a `\uXXXX` escape at the start of the bytes. -/
def unicodeEscapeUnit : Bytes -> Option UInt16
  | 0x5C :: 0x75 :: a :: b :: c :: d :: _ => unitOfHex a b c d
  | _ => none

def shortEscapeUnit (byte : UInt8) : Option UInt16 :=
  if byte == 0x22 || byte == 0x5C || byte == 0x2F then some (UInt16.ofNat byte.toNat)
  else if byte == 0x62 then some 0x08
  else if byte == 0x66 then some 0x0C
  else if byte == 0x6E then some 0x0A
  else if byte == 0x72 then some 0x0D
  else if byte == 0x74 then some 0x09
  else none

/-- The bytes that a part of the source stands for, and how many bytes it has there. -/
structure EscapeToken where
  length : Nat
  decoded : Bytes
  isEscape : Bool
deriving DecidableEq, Repr

def literalToken (byte : UInt8) : EscapeToken :=
  { length := 1, decoded := [byte], isEscape := false }

def escapeToken (length : Nat) (decoded : Bytes) : EscapeToken :=
  { length := length, decoded := decoded, isEscape := true }

/-- A surrogate pair is one decoded code point and one original byte range. -/
def jsonEscape (text : Bytes) : Option EscapeToken :=
  match unicodeEscapeUnit text with
  | some unit =>
      let next := (unicodeEscapeUnit (text.drop 6)).filter isLowSurrogate
      match next.filter fun _ => isHighSurrogate unit with
      | some low => some (escapeToken 12 (utf8Bytes [unit, low]))
      | none => some (escapeToken 6 (utf8Bytes [unit]))
  | none =>
      match text with
      | 0x5C :: byte :: _ =>
          (shortEscapeUnit byte).map fun unit => escapeToken 2 (utf8Bytes [unit])
      | _ => none

def percentEscape : Bytes -> Option EscapeToken
  | 0x25 :: a :: b :: _ => do
      let a ← hexByteValue a
      let b ← hexByteValue b
      pure (escapeToken 3 [UInt8.ofNat (a * 16 + b)])
  | 0x2B :: _ => some (escapeToken 1 [0x20])
  | _ => none

def escapeAt : EscapeFormat -> Bytes -> Option EscapeToken
  | .json => jsonEscape
  | .percent => percentEscape

/-- The source cut into escapes and other bytes; the bytes of an escape are skipped. -/
def escapeTokens (escape : Bytes -> Option EscapeToken) : Nat -> Bytes -> List EscapeToken
  | _, [] => []
  | skipped + 1, _ :: rest => escapeTokens escape skipped rest
  | 0, byte :: rest =>
      match escape (byte :: rest) with
      | some token => token :: escapeTokens escape (token.length - 1) rest
      | none => literalToken byte :: escapeTokens escape 0 rest

/-!
## Offsets
-/

structure EscapeSpan where
  start : Nat
  stop : Nat
  sourceStart : Nat
  sourceStop : Nat
deriving DecidableEq, Repr

/-- The spans of the escapes, from the given offsets on. -/
def escapeSpans : Nat -> Nat -> List EscapeToken -> List EscapeSpan
  | _, _, [] => []
  | sourceOffset, decodedOffset, token :: rest =>
      let spans :=
        escapeSpans (sourceOffset + token.length) (decodedOffset + token.decoded.length) rest
      if token.isEscape then
        { start := decodedOffset
          stop := decodedOffset + token.decoded.length
          sourceStart := sourceOffset
          sourceStop := sourceOffset + token.length } :: spans
      else spans

/-- The binary search for the first span that starts after the position. -/
def searchSpans (spans : List EscapeSpan) (position : Nat) : Nat -> Nat -> Nat -> Nat
  | 0, low, _ => low
  | fuel + 1, low, high =>
      if low < high then
        let middle := (low + high) / 2
        if spans[middle]?.any fun span => span.start <= position then
          searchSpans spans position fuel (middle + 1) high
        else searchSpans spans position fuel low middle
      else low

/-- The search interval shrinks with every step, so the length bounds their number. -/
def lastSpanBefore (spans : List EscapeSpan) (position : Nat) : Option EscapeSpan :=
  match searchSpans spans position spans.length 0 spans.length with
  | 0 => none
  | low + 1 => spans[low]?

def positionAfter (last : Option EscapeSpan) (position : Nat) (atEnd : Bool) : Nat :=
  match last with
  | none => position + atEnd.toNat
  | some span =>
      if position < span.stop then (if atEnd then span.sourceStop else span.sourceStart)
      else position + span.sourceStop - span.stop + atEnd.toNat

def sourcePosition (spans : List EscapeSpan) (position : Nat) (atEnd : Bool) : Nat :=
  positionAfter (lastSpanBefore spans position) position atEnd

structure DecodedBodyView where
  bytes : Bytes
  sourceStart : Nat -> Nat
  sourceEnd : Nat -> Nat

def decodedBodyView (source : Bytes) (format : EscapeFormat) : Option DecodedBodyView :=
  if !source.contains format.marker then none
  else
    let tokens := escapeTokens (escapeAt format) 0 source
    let spans := escapeSpans 0 0 tokens
    if spans.isEmpty then none
    else
      some
        { bytes := tokens.flatMap EscapeToken.decoded
          sourceStart := fun position => sourcePosition spans position false
          sourceEnd := fun position => sourcePosition spans (position - 1) true }

def originalOffsets (parent decoded : DecodedBodyView) : DecodedBodyView :=
  { bytes := decoded.bytes
    sourceStart := fun position => parent.sourceStart (decoded.sourceStart position)
    sourceEnd := fun position => parent.sourceEnd (decoded.sourceEnd position) }

end Redaction
end Pertexo
