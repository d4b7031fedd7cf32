import Pertexo.Library.Keyed
import Pertexo.Spreadsheets.Cells
import Pertexo.Spreadsheets.SheetXml

/-!
# Rows and records of a sheet

## Cells in the making
-/

namespace Pertexo
namespace Spreadsheets

open Library Values

structure SheetRow (Number : Type) where
  index : Nat
  cells : Keyed (Nat × Cell Number) Prod.fst

def SheetRow.cell? {Number : Type} (row : SheetRow Number) (column : Nat) : Option (Cell Number) :=
  (row.cells.get? column).map Prod.snd

inductive CellTarget where
  | value
  | inlineText
deriving DecidableEq, Repr

def OpenCell.written (cell : OpenCell) : CellTarget -> Option ScriptString
  | .value => cell.value
  | .inlineText => cell.inlineText

def OpenCell.write (cell : OpenCell) (target : CellTarget) (text : ScriptString) : OpenCell :=
  match target with
  | .value => { cell with value := some text }
  | .inlineText => { cell with inlineText := some text }

structure SheetReader (Number : Type) where
  finished : List (SheetRow Number)
  row : Option (SheetRow Number)
  cell : Option OpenCell
  target : Option CellTarget
  phonetic : Int
  lastRow : Nat
  lastColumn : Nat
  counted : Nat

/-- Every cell element counts, empty ones included. -/
def countCell (counted : Nat) : Except FileInputFailure Nat :=
  if workbookLimits.cells < counted + 1 then .error .spreadsheet_too_large else .ok (counted + 1)

section

variable {Number : Type}

def appendText (reader : SheetReader Number) (text : ScriptString) :
    Except FileInputFailure (SheetReader Number) :=
  match reader.cell, reader.target with
  | some cell, some target =>
      let next := (cell.written target).getD [] ++ text
      if spreadsheetLimits.writtenCellTextLength < next.length then .error .value_size
      else .ok { reader with cell := some (cell.write target next) }
  | _, _ => .ok reader

def columnPosition (written : Option ScriptString) (previous : Nat) :
    Except FileInputFailure Nat :=
  match written with
  | none => position none previous workbookLimits.columns
  | some text => do
      let place ← cellAt (some text)
      position (some place.column) previous workbookLimits.columns

variable [SheetNumber Number]

def rowPosition (Number : Type) [SheetNumber Number] (written : Option ScriptString)
    (previous : Nat) : Except FileInputFailure Nat :=
  match written with
  | none => position none previous workbookLimits.rows
  | some text =>
      match SheetNumber.wholeNumber Number text with
      | some row => position (some row) previous workbookLimits.rows
      | none => .error .unsupported_spreadsheet

/-- Without a style the first one counts. -/
def styleIndex (Number : Type) [SheetNumber Number] (written : Option ScriptString) :
    Option Nat :=
  match written with
  | none => some 0
  | some text => SheetNumber.wholeNumber Number text

/-!
## Visiting
-/

def openedTag (reader : SheetReader Number) (name : String) (attributes : XmlAttributes) :
    Except FileInputFailure (SheetReader Number) :=
  if name = "row" then do
    let row ← rowPosition Number (readAttribute attributes "r") reader.lastRow
    .ok
      { reader with
        row := some { index := row, cells := Keyed.empty }
        lastRow := row
        lastColumn := 0 }
  else if name = "c" ∧ reader.row.isSome = true then do
    let counted ← countCell reader.counted
    let column ← columnPosition (readAttribute attributes "r") reader.lastColumn
    .ok
      { reader with
        cell := some
          { column
            type := readAttribute attributes "t"
            style := styleIndex Number (readAttribute attributes "s")
            value := none
            inlineText := none }
        lastColumn := column
        counted }
  else if reader.cell.isSome = true then
    if name = "rPh" then .ok { reader with phonetic := reader.phonetic + 1 }
    else if name = "v" then .ok { reader with target := some .value }
    else if name = "t" ∧ reader.phonetic = 0 then .ok { reader with target := some .inlineText }
    else .ok reader
  else .ok reader

/-- Shared and inline text alike counts as read rather than as written. -/
def closeCell (context : CellContext) (reader : SheetReader Number) (cell : OpenCell)
    (row : SheetRow Number) : Except FileInputFailure (SheetReader Number) := do
  let decoded ← decodeCell cell context
  match decoded with
  | none => .ok { reader with cell := none }
  | some value =>
      if spreadsheetLimits.cellTextLength < value.text.length then .error .value_size
      else
        .ok
          { reader with
            row := some { row with cells := row.cells.set (cell.column, value) }
            cell := none }

def closedTag (context : CellContext) (reader : SheetReader Number) (name : String) :
    Except FileInputFailure (SheetReader Number) :=
  if name = "v" ∨ name = "t" then .ok { reader with target := none }
  else if name = "rPh" then .ok { reader with phonetic := reader.phonetic - 1 }
  else if name = "c" then
    match reader.cell, reader.row with
    | some cell, some row => closeCell context reader cell row
    | _, _ => .ok reader
  else if name = "row" then
    match reader.row with
    | some row => .ok { reader with finished := reader.finished ++ [row], row := none }
    | none => .ok reader
  else .ok reader

def sheetVisitor (context : CellContext) : XmlVisitor (SheetReader Number) :=
  { opened := openedTag
    text := appendText
    closed := closedTag context }

def sheetReader (counted : Nat) : SheetReader Number :=
  { finished := []
    row := none
    cell := none
    target := none
    phonetic := 0
    lastRow := 0
    lastColumn := 0
    counted }

/-- The rows of one worksheet, with the cells counted so far. -/
def readSheetRows (context : CellContext) (counted : Nat) (events : List XmlEvent) :
    Except FileInputFailure (List (SheetRow Number) × Nat) := do
  let reader ← readXml (sheetVisitor context) (sheetReader counted) events
  .ok (reader.finished, reader.counted)

end

/-!
## Merged areas
-/

structure MergedArea where
  top : Nat
  left : Nat
  bottom : Nat
  right : Nat
deriving DecidableEq, Repr

def mergedArea (reference : ScriptString) : Except FileInputFailure MergedArea := do
  let parts := reference.splitOn 0x3A
  let top ← cellAt parts[0]?
  let bottom ← cellAt (parts[1]?.or parts[0]?)
  if bottom.row < top.row ∨ bottom.column < top.column then .error .unsupported_spreadsheet
  else
    .ok { top := top.row, left := top.column, bottom := bottom.row, right := bottom.column }

def openedMerge (areas : List MergedArea) (name : String) (attributes : XmlAttributes) :
    Except FileInputFailure (List MergedArea) :=
  match readAttribute attributes "ref" with
  | some reference =>
      if name ≠ "mergeCell" then .ok areas
      else if workbookLimits.merges ≤ areas.length then .error .spreadsheet_too_large
      else do
        let area ← mergedArea reference
        .ok (areas ++ [area])
  | none => .ok areas

def mergeVisitor : XmlVisitor (List MergedArea) :=
  { opened := openedMerge
    text := fun areas _ => .ok areas
    closed := fun areas _ => .ok areas }

/-- Excel writes merged areas after the cells, so they need a pass of their own. -/
def readMergedAreas (events : List XmlEvent) : Except FileInputFailure (List MergedArea) :=
  readXml mergeVisitor [] events

section

variable {Number : Type}

structure ActiveArea (Number : Type) where
  area : MergedArea
  value : Cell Number

structure MergedFill (Number : Type) where
  pending : List MergedArea
  active : List (ActiveArea Number)

def mergedFill (areas : List MergedArea) : MergedFill Number :=
  { pending := areas.mergeSort fun left right => decide (left.top ≤ right.top)
    active := [] }

/-- An area whose top-left cell is empty, or whose top row is absent, has nothing to
fill. -/
def captureAreas (row : SheetRow Number) :
    List MergedArea -> List (ActiveArea Number) -> MergedFill Number
  | [], active => { pending := [], active }
  | area :: rest, active =>
      if area.top ≤ row.index then
        captureAreas row rest
          (active ++
            ((if area.top = row.index then row.cell? area.left else none).map fun value =>
              { area, value : ActiveArea Number }).toList)
      else { pending := area :: rest, active }

def MergedFill.capture (merges : MergedFill Number) (row : SheetRow Number) : MergedFill Number :=
  captureAreas row merges.pending merges.active

def MergedFill.narrow (merges : MergedFill Number) (width : Nat) : MergedFill Number :=
  { pending := merges.pending.filter fun area => decide (area.left ≤ width)
    active := merges.active.filter fun active => decide (active.area.left ≤ width) }

structure FilledRow (Number : Type) where
  row : SheetRow Number
  counted : Nat

def fillColumn (active : ActiveArea Number) (filled : FilledRow Number) (column : Nat) :
    Except FileInputFailure (FilledRow Number) :=
  if filled.row.index ≠ active.area.top ∨ column ≠ active.area.left then do
    let counted ← countCell filled.counted
    .ok
      { row := { filled.row with cells := filled.row.cells.set (column, active.value) }
        counted }
  else .ok filled

def fillArea (width : Nat) (filled : FilledRow Number) (active : ActiveArea Number) :
    Except FileInputFailure (FilledRow Number) :=
  (List.range' active.area.left (min active.area.right width + 1 - active.area.left)).foldlM
    (fillColumn active) filled

/-- Fills count toward the cell budget, and areas above the row are dropped. -/
def MergedFill.fill (merges : MergedFill Number) (filled : FilledRow Number) (width : Nat) :
    Except FileInputFailure (MergedFill Number × FilledRow Number) := do
  let active := merges.active.filter fun active => decide (filled.row.index ≤ active.area.bottom)
  let filled ← active.foldlM (fillArea width) filled
  .ok ({ merges with active }, filled)

/-!
## Headers
-/

/-- Nonblank, unique and untrimmed. -/
def admitNames (unique : List ScriptString) (index : Nat) :
    List ScriptString -> Except FileInputFailure Unit
  | [] => .ok ()
  | name :: rest =>
      if trim name = [] then .error (.blank_header (index + 1))
      else if name ∈ unique then .error (.duplicate_header (index + 1) false)
      else admitNames (name :: unique) (index + 1) rest

def admitHeaders (names : List ScriptString) : Except FileInputFailure (List ScriptString) :=
  if 10000 < names.length then .error .value_size
  else do
    admitNames [] 0 names
    .ok names

def SheetRow.columns (row : SheetRow Number) : List Nat :=
  row.cells.items.map Prod.fst

/-- A repeat that a merged area filled in says so: the merge rule made it. -/
def markMerged (own : List Nat) : FileInputFailure -> FileInputFailure
  | .duplicate_header column merged =>
      if column ∈ own then .duplicate_header column merged else .duplicate_header column true
  | failure => failure

/-- Header names are the cells' text, up to the last named column. -/
def headerNames (row : SheetRow Number) (own : List Nat) :
    Except FileInputFailure (List ScriptString) :=
  let width := row.columns.foldl max 0
  let names := (List.range width).map fun index =>
    ((row.cell? (index + 1)).map Cell.text).getD []
  (admitHeaders names).mapError (markMerged own)

/-!
## Records
-/

abbrev SheetRecord (Number : Type) := List (ScriptString × CellValue Number)

def fromEntries (entries : List (ScriptString × α)) : List (ScriptString × α) :=
  entries.foldl (fun record entry => defineProperty entry.1 entry.2 record) []

def recordValue (cell : Option (Cell Number)) (convertValues : Bool) : CellValue Number :=
  match cell with
  | none => .text []
  | some cell => if convertValues then cell.value else .text cell.text

structure RecordReader (Number : Type) where
  merges : MergedFill Number
  counted : Nat
  headers : Option (List ScriptString)
  records : List (SheetRecord Number)

structure XlsxConfig where
  headerRow : Nat
  convertValues : Bool

/-- Cells under no header fail like CSV's extra columns. -/
def dataRow (row : SheetRow Number) (headers : List ScriptString) (convertValues : Bool)
    (reader : RecordReader Number) : Except FileInputFailure (RecordReader Number) :=
  match row.columns.find? fun column => decide (headers.length < column) with
  | some outside => .error (.blank_header outside)
  | none => do
      let (merges, filled) ← reader.merges.fill { row, counted := reader.counted } headers.length
      let entries := headers.mapIdx fun index name =>
        (name, recordValue (filled.row.cell? (index + 1)) convertValues)
      .ok
        { reader with
          merges
          counted := filled.counted
          records := reader.records ++ [fromEntries entries] }

def headerRow (row : SheetRow Number) (reader : RecordReader Number) :
    Except FileInputFailure (RecordReader Number) := do
  let (merges, filled) ← reader.merges.fill
    { row, counted := reader.counted } workbookLimits.columns
  let headers ← headerNames filled.row row.columns
  .ok
    { reader with
      merges := merges.narrow headers.length
      counted := filled.counted
      headers := some headers }

/-- Rows without cells are passed over; a row below an absent header row ends the
reading. -/
def readRecords (config : XlsxConfig) :
    List (SheetRow Number) -> RecordReader Number -> Except FileInputFailure (RecordReader Number)
  | [], reader => .ok reader
  | row :: rest, reader =>
      let captured := { reader with merges := reader.merges.capture row }
      if row.index < config.headerRow ∨ row.cells.items = [] then readRecords config rest captured
      else
        match captured.headers with
        | some headers => do
            let next ← dataRow row headers config.convertValues captured
            readRecords config rest next
        | none =>
            if config.headerRow < row.index then .ok captured
            else do
              let next ← headerRow row captured
              readRecords config rest next

/-- One record per row below the header row, keyed by its names, with empty cells as
empty text. -/
def readXlsxRecords [SheetNumber Number] (context : CellContext) (config : XlsxConfig)
    (events : List XmlEvent) : Except FileInputFailure (List (SheetRecord Number)) := do
  let areas ← readMergedAreas events
  let (rows, counted) ← readSheetRows context 0 events
  let reader ← readRecords config rows
    { merges := mergedFill areas, counted, headers := none, records := [] }
  match reader.headers with
  | some _ => .ok reader.records
  | none => .error (.sheet_header_row config.headerRow)

end

end Spreadsheets
end Pertexo
