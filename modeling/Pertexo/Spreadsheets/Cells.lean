import Pertexo.Library.Replacement
import Pertexo.Spreadsheets.Columns
import Pertexo.Values.JsonText
import Pertexo.Values.ScriptStrings

/-!
# Cells and their text

## Escape runs

A run is an underscore, an x, four hexadecimal digits and another underscore.
-/

namespace Pertexo
namespace Spreadsheets

open Library Values

def isHexDigit (unit : UInt16) : Bool :=
  (decide (0x30 ≤ unit.toNat) && decide (unit.toNat ≤ 0x39)) ||
    (decide (0x41 ≤ unit.toNat) && decide (unit.toNat ≤ 0x46)) ||
    (decide (0x61 ≤ unit.toNat) && decide (unit.toNat ≤ 0x66))

abbrev HexDigit : Type :=
  { unit : UInt16 // isHexDigit unit = true }

def hexDigit? (unit : UInt16) : Option HexDigit :=
  if h : isHexDigit unit = true then some ⟨unit, h⟩ else none

def HexDigit.value (digit : HexDigit) : Nat :=
  if digit.val.toNat ≤ 0x39 then digit.val.toNat - 0x30
  else if digit.val.toNat ≤ 0x46 then digit.val.toNat - 0x41 + 10
  else digit.val.toNat - 0x61 + 10

structure HexCode where
  first : HexDigit
  second : HexDigit
  third : HexDigit
  fourth : HexDigit

/-- What an escape run has between its underscores. -/
def HexCode.body (code : HexCode) : ScriptString :=
  [0x78, code.first.val, code.second.val, code.third.val, code.fourth.val]

def HexCode.value (code : HexCode) : UInt16 :=
  UInt16.ofNat
    (code.first.value * 0x1000 + code.second.value * 0x100 + code.third.value * 0x10 +
      code.fourth.value)

def escapeRun : ScriptString -> Option HexCode
  | underscore :: x :: first :: second :: third :: fourth :: close :: _ =>
      if underscore = 0x5F ∧ x = 0x78 ∧ close = 0x5F then do
        let first ← hexDigit? first
        let second ← hexDigit? second
        let third ← hexDigit? third
        let fourth ← hexDigit? fourth
        some { first, second, third, fourth }
      else none
  | _ => none

def escapeRuns : FixedPattern UInt16 HexCode :=
  { more := 6
    found := escapeRun }

/-!
## Writing and reading
-/

structure SpreadsheetLimits where
  cellTextLength : Nat
  writtenCellTextLength : Nat

/-- Each escape is seven written characters for one read. -/
def spreadsheetLimits : SpreadsheetLimits :=
  { cellTextLength := 32767
    writtenCellTextLength := 32767 * 7 }

def toWellFormed (text : ScriptString) : ScriptString :=
  (codePoints text).flatMap fun point =>
    match point with
    | .char c => charUnits c
    | .lone _ => [0xFFFD]

/-- XML can't hold these; Excel writes them, and carriage returns, as _xHHHH_. -/
def isUnwritable (unit : UInt16) : Bool :=
  decide (unit.toNat ≤ 0x08) || decide (unit.toNat = 0x0B) || decide (unit.toNat = 0x0C) ||
    decide (unit.toNat = 0x0D) ||
    (decide (0x0E ≤ unit.toNat) && decide (unit.toNat ≤ 0x1F)) ||
    decide (unit.toNat = 0xFFFE) || decide (unit.toNat = 0xFFFF)

def upperHexDigit (n : Nat) : UInt16 :=
  if n < 10 then UInt16.ofNat (0x30 + n) else UInt16.ofNat (0x41 + (n - 10))

/-- The hexadecimal digits of a code unit, padded to four. -/
def upperHexDigits (unit : UInt16) : ScriptString :=
  [upperHexDigit (unit.toNat / 0x1000), upperHexDigit (unit.toNat / 0x100 % 0x10),
    upperHexDigit (unit.toNat / 0x10 % 0x10), upperHexDigit (unit.toNat % 0x10)]

def escapeUnwritable (text : ScriptString) : ScriptString :=
  text.flatMap fun unit =>
    if isUnwritable unit then scriptString "_x" ++ upperHexDigits unit ++ scriptString "_"
    else [unit]

def protectRuns (text : ScriptString) : ScriptString :=
  escapeRuns.replaceAll (fun code => scriptString "_x005F_" ++ (code.body ++ scriptString "_"))
    text

/-- Excel's _xHHHH_ escapes; a literal escape-like run protects its underscore. -/
def excelText (text : ScriptString) : ScriptString :=
  escapeUnwritable (protectRuns (toWellFormed text))

/-- Excel escapes characters XML can't hold as _xHHHH_. -/
def plainText (value : ScriptString) : ScriptString :=
  escapeRuns.replaceAll (fun code => [code.value]) value

/-!
## Numbers of a sheet

What a script asks of the numbers of a sheet. `wholeNumber` is the number that a
text reads as, where that is a whole one; safe ones are read exactly. The text of
a number is a short one.
-/

inductive DateKind where
  | date
  | time
  | datetime
deriving DecidableEq, Repr

class SheetNumber (Number : Type) extends ScriptNumber Number where
  isInteger : Number -> Bool
  isSafeInteger : Number -> Bool
  isoDate : NumberValue Number -> DateKind -> Bool -> Option ScriptString
  wholeNumber : ScriptString -> Option Nat
  wholeNumber_decimal : forall n, n < 2 ^ 53 -> wholeNumber (decimal n) = some n
  length_text_le : forall n : Number, (ScriptNumber.text n).length ≤ 32

inductive CellValue (Number : Type) where
  | text (value : ScriptString)
  | number (value : NumberValue Number)
  | boolean (value : Bool)

/-- A cell as typed data and as the text Excel's own CSV export would give. -/
structure Cell (Number : Type) where
  value : CellValue Number
  text : ScriptString

structure OpenCell where
  column : Nat
  type : Option ScriptString
  style : Option Nat
  value : Option ScriptString
  inlineText : Option ScriptString

structure CellContext where
  sharedStrings : List ScriptString
  dateStyles : List (Option DateKind)
  date1904 : Bool

/-!
## Doubles

A sign, digits with a point among or after them or digits after a point, and an
exponent.
-/

inductive DoublePhase where
  | start
  | sign
  | integer
  | barePoint
  | fraction
  | exponent
  | exponentSign
  | power
deriving DecidableEq, Repr

def doubleStep (phase : DoublePhase) (c : Char) : Option DoublePhase :=
  match phase with
  | .start =>
      if c == '+' || c == '-' then some .sign
      else if c.isDigit then some .integer
      else if c == '.' then some .barePoint
      else none
  | .sign =>
      if c.isDigit then some .integer
      else if c == '.' then some .barePoint
      else none
  | .integer =>
      if c.isDigit then some .integer
      else if c == '.' then some .fraction
      else if isExponentMark c then some .exponent
      else none
  | .barePoint => if c.isDigit then some .fraction else none
  | .fraction =>
      if c.isDigit then some .fraction
      else if isExponentMark c then some .exponent
      else none
  | .exponent =>
      if c == '+' || c == '-' then some .exponentSign
      else if c.isDigit then some .power
      else none
  | .exponentSign => if c.isDigit then some .power else none
  | .power => if c.isDigit then some .power else none

def DoublePhase.isComplete : DoublePhase -> Bool
  | .integer => true
  | .fraction => true
  | .power => true
  | _ => false

def isDouble (text : List Char) : Bool :=
  match text.foldlM doubleStep .start with
  | some phase => phase.isComplete
  | none => false

/-- The characters of a text of code units below the surrogates. -/
def unitChars (text : ScriptString) : List Char :=
  text.map fun unit => Char.ofNat unit.toNat

/-!
## Decoding
-/

section

variable {Number : Type} [SheetNumber Number]

def textCell (value : ScriptString) : Option (Cell Number) :=
  if value = [] then none else some { value := .text value, text := value }

def booleanCell (raw : ScriptString) : Cell Number :=
  if raw = scriptString "1" ∨ raw = scriptString "true" then
    { value := .boolean true, text := scriptString "TRUE" }
  else if raw = scriptString "0" ∨ raw = scriptString "false" then
    { value := .boolean false, text := scriptString "FALSE" }
  else { value := .text raw, text := raw }

/-- Integers beyond the safe range keep their written digits. -/
def plainNumber (raw : ScriptString) : NumberValue Number -> Cell Number
  | .finite value =>
      if ! SheetNumber.isInteger value || SheetNumber.isSafeInteger value then
        { value := .number (.finite value)
          text := (ScriptNumber.text value).flatMap charUnits }
      else { value := .text raw, text := raw }
  | .negativeZero => { value := .number .negativeZero, text := scriptString "0" }
  | .notFinite => { value := .text raw, text := raw }

def numberCell (raw : ScriptString) (style : Option Nat) (context : CellContext) :
    Cell Number :=
  if ! isDouble (unitChars raw) then { value := .text raw, text := raw }
  else
    let value : NumberValue Number := ScriptNumber.read (unitChars raw)
    let kind := (style.bind fun index => context.dateStyles[index]?).join
    match kind.bind fun kind => SheetNumber.isoDate value kind context.date1904 with
    | some date => { value := .text date, text := date }
    | none => plainNumber raw value

def sharedString (Number : Type) [SheetNumber Number] (raw : ScriptString)
    (sharedStrings : List ScriptString) : Except FileInputFailure ScriptString :=
  match (SheetNumber.wholeNumber Number raw).bind fun index => sharedStrings[index]? with
  | some value => .ok value
  | none => .error .unsupported_spreadsheet

/-- Formulas use their cached values; nothing is evaluated. Empty cells give none. -/
def decodeCell (cell : OpenCell) (context : CellContext) :
    Except FileInputFailure (Option (Cell Number)) :=
  let raw := cell.value.getD []
  let type := cell.type.getD (scriptString "n")
  if type = scriptString "s" then
    if raw = [] then .ok none
    else do return textCell (← sharedString Number raw context.sharedStrings)
  else if type = scriptString "inlineStr" then
    .ok (textCell (plainText (cell.inlineText.getD [])))
  else if type = scriptString "str" then .ok (textCell (plainText raw))
  else if type = scriptString "b" then
    .ok (if raw = [] then none else some (booleanCell raw))
  else if type = scriptString "n" then
    .ok (if raw = [] then none else some (numberCell raw cell.style context))
  else .ok (textCell raw)

end

end Spreadsheets
end Pertexo
