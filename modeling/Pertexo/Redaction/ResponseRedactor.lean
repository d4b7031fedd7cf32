import Pertexo.Library.OverlapChains
import Pertexo.Redaction.DecodedBody
import Pertexo.Redaction.PatternAutomaton

/-!
# Redacting a response

## Views of a body

Every view that is decoded takes its bytes from the decoding budget, before its
escapes are looked for.
-/

namespace Pertexo
namespace Redaction

open Library
open Values

structure SecureHttpError where
  code : String
  possiblyDispatched : Bool
  ambiguous : Bool
deriving DecidableEq, Repr

def responseRedactionLimit : SecureHttpError :=
  { code := "response_redaction_limit", possiblyDispatched := true, ambiguous := false }

/-- The documented bound includes the outer response's JSON-string encoding. -/
def jsonEscapeLayers : Nat :=
  4

def decodeView (bytesLeft : Nat) (parent : DecodedBodyView) (format : EscapeFormat) :
    Except SecureHttpError (Option DecodedBodyView × Nat) :=
  if !parent.bytes.contains format.marker then Except.ok (none, bytesLeft)
  else if parent.bytes.length > bytesLeft then Except.error responseRedactionLimit
  else
    Except.ok
      ((decodedBodyView parent.bytes format).map (originalOffsets parent),
        bytesLeft - parent.bytes.length)

def jsonViews : Nat -> Nat -> DecodedBodyView ->
    Except SecureHttpError (List DecodedBodyView × Nat)
  | 0, bytesLeft, _ => Except.ok ([], bytesLeft)
  | layers + 1, bytesLeft, previous => do
      let (decoded, bytesLeft) ← decodeView bytesLeft previous .json
      match decoded with
      | none => Except.ok ([], bytesLeft)
      | some view => do
          let (views, bytesLeft) ← jsonViews layers bytesLeft view
          Except.ok (view :: views, bytesLeft)

def percentViews : Nat -> List DecodedBodyView ->
    Except SecureHttpError (List DecodedBodyView × Nat)
  | bytesLeft, [] => Except.ok ([], bytesLeft)
  | bytesLeft, parent :: rest => do
      let (decoded, bytesLeft) ← decodeView bytesLeft parent .percent
      let (views, bytesLeft) ← percentViews bytesLeft rest
      Except.ok (decoded.toList ++ views, bytesLeft)

def identityView (source : Bytes) : DecodedBodyView :=
  { bytes := source
    sourceStart := fun position => position
    sourceEnd := fun position => position }

def viewsOf (bytesLeft : Nat) (source : Bytes) :
    Except SecureHttpError (List DecodedBodyView × Nat) := do
  let (layers, bytesLeft) ← jsonViews jsonEscapeLayers bytesLeft (identityView source)
  let parents := identityView source :: layers
  let (decoded, bytesLeft) ← percentViews bytesLeft parents
  Except.ok (parents ++ decoded, bytesLeft)

/-!
## Matches
-/

abbrev Match := Span Nat

structure FindProgress where
  state : Bytes := []
  index : Nat := 0
  found : List Match := []

/-- The longest pattern that ends at a byte, as far as there is one. -/
def findStep (automaton : MatchingAutomaton) (view : DecodedBodyView) (progress : FindProgress)
    (byte : UInt8) : FindProgress :=
  let state := nextState automaton progress.state byte
  let index := progress.index + 1
  let length := (automaton state).length
  { state := state
    index := index
    found :=
      if length != 0 then
        progress.found ++
          [{ start := view.sourceStart (index - length), stop := view.sourceEnd index }]
      else progress.found }

def find (automaton : MatchingAutomaton) (view : DecodedBodyView) : List Match :=
  (view.bytes.foldl (findStep automaton view) {}).found

def compareMatches (left right : Match) : Ordering :=
  (compare left.start right.start).then (compare right.stop left.stop)

/-!
## Masks
-/

def mask : Bytes :=
  "[Redacted]".toList.map fun c => UInt8.ofNat c.toNat

/-- The source with the matches masked up to its end, and how far it is written. -/
def maskMatches (source : Bytes) (stop : Nat) : Nat -> List Match -> Bytes × Nat
  | written, [] =>
      if written < stop then ((source.take stop).drop written, stop) else ([], written)
  | written, found :: rest =>
      if stop <= found.start then
        if written < stop then ((source.take stop).drop written, stop) else ([], written)
      else if found.start < written then maskMatches source stop (max written found.stop) rest
      else
        let (parts, finished) := maskMatches source stop found.stop rest
        ((source.take found.start).drop written ++ mask ++ parts, finished)

structure ResponseRedactor where
  automaton : MatchingAutomaton
  maximum : Nat
  decodingBytesLeft : Nat

/-- One response-scoped automaton matches every credential representation together. -/
def prepareResponseRedactor (sensitiveValues : List ScriptString) (rawByteLimit : Nat) :
    ResponseRedactor :=
  let patterns := prepareSensitiveBytePatterns sensitiveValues
  { automaton := prepareAutomaton patterns
    maximum := maximumLength patterns
    decodingBytesLeft := min 1048576 (max 32768 (8 * rawByteLimit)) }

structure RedactedPart where
  emitted : Bytes
  remaining : Bytes
  covered : Nat
deriving DecidableEq, Repr

/-- An unfinished body is held back where a view may end in an unfinished credential. -/
def emittedEnd (maximum : Nat) (views : List DecodedBodyView) (source : Bytes) (final : Bool) :
    Nat :=
  if final then source.length
  else
    views.foldl
      (fun stop view => min stop (view.sourceStart (view.bytes.length - maximum - 11)))
      source.length

def redact (redactor : ResponseRedactor) (source : Bytes) (final : Bool) (covered : Nat) :
    Except SecureHttpError (RedactedPart × ResponseRedactor) :=
  if redactor.maximum == 0 then
    Except.ok ({ emitted := source, remaining := [], covered := 0 }, redactor)
  else do
    let (views, bytesLeft) ← viewsOf redactor.decodingBytesLeft source
    let stop := emittedEnd redactor.maximum views source final
    let found := sortWith compareMatches (views.flatMap (find redactor.automaton))
    let (emitted, written) := maskMatches source stop covered found
    Except.ok
      ({ emitted := emitted, remaining := source.drop stop, covered := written - stop },
        { redactor with decodingBytesLeft := bytesLeft })

end Redaction
end Pertexo
