import Pertexo.Spreadsheets.SheetRecords
import Pertexo.Spreadsheets.SheetXml
import Pertexo.Spreadsheets.WrittenCells

/-!
# Reading written cells

## Attributes
-/

namespace Pertexo
namespace Spreadsheets

open Library Values

theorem cellAttribute_plain :
    forall name, name ∈ ["r", "t", "s"] ->
      isNamespaceName name = false ∧ localName name = name := by
  decide

theorem localAttributes_of_plain {attributes : XmlAttributes}
    (h : forall field, field ∈ attributes -> field.1 ∈ ["r", "t", "s"]) :
    localAttributes attributes = attributes := by
  have hfilter : attributes.filter (fun field => ! isNamespaceName field.1) = attributes := by
    rw [List.filter_eq_self]
    intro field hfield
    rw [(cellAttribute_plain field.1 (h field hfield)).left]
    rfl
  have hmap : attributes.map (fun field => (localName field.1, field.2)) = attributes.map id := by
    apply List.map_congr_left
    intro field hfield
    rw [(cellAttribute_plain field.1 (h field hfield)).right]
    rfl
  rw [localAttributes, hfilter, hmap, List.map_id]

structure ReadsAs (attributes : XmlAttributes) (reference : ScriptString)
    (type : Option ScriptString) : Prop where
  few : attributes.length ≤ 128
  reference : readAttribute (localAttributes attributes) "r" = some reference
  type : readAttribute (localAttributes attributes) "t" = type

theorem readsAs_number (reference : ScriptString) : ReadsAs [("r", reference)] reference none := by
  have hlocal : localAttributes [("r", reference)] = [("r", reference)] :=
    localAttributes_of_plain (by simp)
  constructor
  · simp
  · rw [hlocal]
    rfl
  · rw [hlocal]
    rfl

theorem readsAs_boolean (reference : ScriptString) :
    ReadsAs [("r", reference), ("t", scriptString "b")] reference (some (scriptString "b")) := by
  have hlocal : localAttributes [("r", reference), ("t", scriptString "b")] =
      [("r", reference), ("t", scriptString "b")] :=
    localAttributes_of_plain (by simp)
  constructor
  · simp
  · rw [hlocal]
    rfl
  · rw [hlocal]
    rfl

theorem readsAs_inline (reference text : ScriptString) (header : Bool) :
    ReadsAs
      ([("r", reference), ("t", scriptString "inlineStr")] ++
        styleAttribute (cellStyle text header))
      reference (some (scriptString "inlineStr")) := by
  rw [styleAttribute]
  split
  · have hlocal : localAttributes
        ([("r", reference), ("t", scriptString "inlineStr")] ++ []) =
        [("r", reference), ("t", scriptString "inlineStr")] :=
      localAttributes_of_plain (by simp)
    constructor
    · simp
    · rw [hlocal]
      rfl
    · rw [hlocal]
      rfl
  · have hlocal : localAttributes
        ([("r", reference), ("t", scriptString "inlineStr")] ++
          [("s", decimal (cellStyle text header))]) =
        [("r", reference), ("t", scriptString "inlineStr"),
          ("s", decimal (cellStyle text header))] :=
      localAttributes_of_plain (by simp)
    constructor
    · simp
    · rw [hlocal]
      rfl
    · rw [hlocal]
      rfl

/-!
## States
-/

def OpenCell.put (cell : OpenCell) (target : CellTarget) (written : Option ScriptString) :
    OpenCell :=
  match target with
  | .value => { cell with value := written }
  | .inlineText => { cell with inlineText := written }

theorem OpenCell.put_written (cell : OpenCell) (target : CellTarget) :
    cell.put target (cell.written target) = cell := by
  cases target with
  | value => rfl
  | inlineText => rfl

theorem OpenCell.put_write (cell : OpenCell) (target : CellTarget) (text : ScriptString)
    (written : Option ScriptString) : (cell.write target text).put target written =
      cell.put target written := by
  cases target with
  | value => rfl
  | inlineText => rfl

theorem OpenCell.written_write (cell : OpenCell) (target : CellTarget) (text : ScriptString) :
    (cell.write target text).written target = some text := by
  cases target with
  | value => rfl
  | inlineText => rfl

section

variable {Number : Type}

def SheetRow.hold (row : SheetRow Number) (column : Nat) (decoded : Option (Cell Number)) :
    SheetRow Number :=
  match decoded with
  | none => row
  | some value => { row with cells := row.cells.set (column, value) }

def inRow (finished : List (SheetRow Number)) (row : SheetRow Number) (lastColumn counted : Nat) :
    SheetReader Number :=
  { finished
    row := some row
    cell := none
    target := none
    phonetic := 0
    lastRow := row.index
    lastColumn
    counted }

def inCell (finished : List (SheetRow Number)) (row : SheetRow Number) (cell : OpenCell)
    (target : Option CellTarget) (counted : Nat) : SheetReader Number :=
  { finished
    row := some row
    cell := some cell
    target
    phonetic := 0
    lastRow := row.index
    lastColumn := cell.column
    counted }

variable [SheetNumber Number] {context : CellContext} {depth : Nat}

/-- The pieces of a text add up in the cell's target. -/
theorem visitEvents_pieces {pieces : List ScriptString} {finished : List (SheetRow Number)}
    {row : SheetRow Number} {cell : OpenCell} {target : CellTarget} {counted : Nat}
    (hlimit : ((cell.written target).getD [] ++ pieces.flatten).length ≤
      spreadsheetLimits.writtenCellTextLength) :
    exists written, written.getD [] = (cell.written target).getD [] ++ pieces.flatten ∧
      visitEvents (sheetVisitor context)
          { depth, state := inCell finished row cell (some target) counted }
          (pieces.map XmlEvent.text) =
        .ok
          { depth
            state := inCell finished row (cell.put target written) (some target) counted } := by
  induction pieces generalizing cell with
  | nil =>
      exists cell.written target
      constructor
      · rw [List.flatten_nil, List.append_nil]
      · rw [OpenCell.put_written]
        rfl
  | cons piece rest ih =>
      rw [List.flatten_cons, ← List.append_assoc] at hlimit
      have hpiece : ((cell.written target).getD [] ++ piece).length ≤
          spreadsheetLimits.writtenCellTextLength := by
        rw [List.length_append] at hlimit
        exact Nat.le_trans (Nat.le_add_right _ _) hlimit
      have hcolumn : (cell.write target ((cell.written target).getD [] ++ piece)).column =
          cell.column := by
        cases target with
        | value => rfl
        | inlineText => rfl
      have hfirst : appendText (inCell finished row cell (some target) counted) piece =
          .ok (inCell finished row (cell.write target ((cell.written target).getD [] ++ piece))
            (some target) counted) := by
        rw [inCell, inCell, hcolumn]
        exact if_neg (Nat.not_lt.mpr hpiece)
      have hsecond := @ih (cell.write target ((cell.written target).getD [] ++ piece))
      rw [OpenCell.written_write, Option.getD_some] at hsecond
      rcases hsecond hlimit with ⟨written, hwritten, hrest⟩
      rw [OpenCell.put_write] at hrest
      exists written
      constructor
      · rw [hwritten, List.flatten_cons, List.append_assoc]
      · exact visitEvents_cons (bind_eq_ok_iff.mpr ⟨_, hfirst, rfl⟩) hrest

theorem visitEvent_cell {attributes : XmlAttributes} {column lastColumn counted : Nat}
    {type : Option ScriptString} {finished : List (SheetRow Number)} {row : SheetRow Number}
    (hattributes : ReadsAs attributes (reference column row.index) type) (hdepth : depth < 64)
    (hcolumn : column < 16384) (hlast : lastColumn ≤ column) (hrow : 0 < row.index)
    (hfits : row.index < 10000000) (hcount : counted < 1000000) :
    exists style, visitEvent (sheetVisitor context)
        { depth, state := inRow finished row lastColumn counted } (.opentag "c" attributes) =
      .ok
        { depth := depth + 1
          state := inCell finished row
            { column := column + 1, type, style, value := none, inlineText := none } none
            (counted + 1) } := by
  rcases cellAt_reference hcolumn hrow hfits with ⟨place, hplace, hat⟩
  have hname : localName "c" = "c" := by decide
  have hcounted : countCell counted = .ok (counted + 1) :=
    if_neg (Nat.not_lt.mpr hcount)
  have hposition : columnPosition (some (reference column row.index)) lastColumn =
      .ok (column + 1) := by
    rw [columnPosition]
    change (cellAt (some (columnLetters column ++ decimal row.index)) >>= fun place =>
      position (some place.column) lastColumn workbookLimits.columns) = _
    rw [hplace]
    change position (some place.column) lastColumn 16384 = _
    rw [position, Option.getD_some, hat, if_neg (by omega)]
  exists styleIndex Number (readAttribute (localAttributes attributes) "s")
  rw [visitEvent, if_neg]
  · rw [hname]
    change (openedTag (inRow finished row lastColumn counted) "c" (localAttributes attributes) >>=
      _) = _
    rw [openedTag, if_neg (by decide), if_pos ⟨rfl, rfl⟩, hattributes.reference, hattributes.type]
    change ((countCell counted >>= fun counted =>
      columnPosition (some (reference column row.index)) lastColumn >>= _) >>= _) = _
    rw [hcounted]
    change ((columnPosition (some (reference column row.index)) lastColumn >>= _) >>= _) = _
    rw [hposition]
    rfl
  · have hfew := hattributes.few
    change ¬ (128 < attributes.length ∨ 64 < depth + 1)
    omega

section

variable {finished : List (SheetRow Number)} {row : SheetRow Number} {cell : OpenCell}
  {target : Option CellTarget} {counted : Nat}

theorem visitEvent_opened {name : String} {attributes : XmlAttributes} {next : Option CellTarget}
    (hdepth : depth < 64) (hfew : attributes.length ≤ 128) (hplain : localName name = name)
    (hopened : openedTag (inCell finished row cell target counted) name
      (localAttributes attributes) = .ok (inCell finished row cell next counted)) :
    visitEvent (sheetVisitor context) { depth, state := inCell finished row cell target counted }
        (.opentag name attributes) =
      .ok { depth := depth + 1, state := inCell finished row cell next counted } := by
  rw [visitEvent, hplain, if_neg]
  · exact bind_eq_ok_iff.mpr ⟨_, hopened, rfl⟩
  · change ¬ (128 < attributes.length ∨ 64 < depth + 1)
    omega

theorem visitEvent_closed {name : String} {next : Option CellTarget}
    (hplain : localName name = name)
    (hclosed : closedTag context (inCell finished row cell target counted) name =
      .ok (inCell finished row cell next counted)) :
    visitEvent (sheetVisitor context)
        { depth := depth + 1, state := inCell finished row cell target counted }
        (.closetag name) =
      .ok { depth, state := inCell finished row cell next counted } := by
  rw [visitEvent, hplain]
  exact bind_eq_ok_iff.mpr ⟨_, hclosed, rfl⟩

theorem visitEvent_closed_cell {decoded : Option (Cell Number)}
    (hdecode : decodeCell cell context = .ok decoded)
    (hlimit : forall value, decoded = some value ->
      value.text.length ≤ spreadsheetLimits.cellTextLength) :
    visitEvent (sheetVisitor context)
        { depth := depth + 1, state := inCell finished row cell none counted } (.closetag "c") =
      .ok { depth
            state := inRow finished (row.hold cell.column decoded) cell.column counted } := by
  have hname : localName "c" = "c" := by decide
  have hindex : (row.hold cell.column decoded).index = row.index := by
    cases decoded with
    | none => rfl
    | some value => rfl
  have hclosed : closeCell context (inCell finished row cell none counted) cell row =
      .ok (inRow finished (row.hold cell.column decoded) cell.column counted) := by
    rw [closeCell, hdecode, inRow, hindex]
    cases decoded with
    | none => rfl
    | some value => exact if_neg (Nat.not_lt.mpr (hlimit value rfl))
  rw [visitEvent, hname]
  exact bind_eq_ok_iff.mpr ⟨_, hclosed, rfl⟩

end

/-!
## Cells
-/

section

variable {finished : List (SheetRow Number)} {row : SheetRow Number}
  {column lastColumn counted : Nat}

theorem reads_valueCell {attributes : XmlAttributes} {type : Option ScriptString}
    {text : ScriptString} {value : Cell Number}
    (hattributes : ReadsAs attributes (reference column row.index) type) (hdepth : depth < 60)
    (hcolumn : column < 16384) (hlast : lastColumn ≤ column) (hrow : 0 < row.index)
    (hfits : row.index < 10000000) (hcount : counted < 1000000) (hne : text ≠ [])
    (hshort : text.length ≤ 32)
    (hdecode : forall style, decodeCell
      { column := column + 1, type, style, value := some text, inlineText := none } context =
        .ok (some value))
    (hlimit : value.text.length ≤ spreadsheetLimits.cellTextLength) :
    Reads (sheetVisitor context) ((valueCell attributes text).flatMap XmlToken.events)
      { depth, state := inRow finished row lastColumn counted }
      { depth
        state := inRow finished (row.hold (column + 1) (some value)) (column + 1)
          (counted + 1) } := by
  have hplain : localName "v" = "v" := by decide
  rcases @visitEvent_cell _ _ context depth _ _ _ _ _ finished _ hattributes (by omega) hcolumn
    hlast hrow hfits hcount with ⟨style, hopen⟩
  apply Reads.opentag hopen
  apply Reads.opentag (visitEvent_opened (by omega) (by decide) hplain rfl)
  apply Reads.text
  intro pieces hpieces
  have hread := @visitEvents_pieces _ _ context (depth + 1 + 1) pieces finished row
    { column := column + 1, type, style, value := none, inlineText := none } .value (counted + 1)
  rw [hpieces] at hread
  rcases hread (Nat.le_trans hshort (by decide)) with ⟨written, hwritten, hvisit⟩
  have hsome : written = some text := by
    cases written with
    | none => exact absurd hwritten.symm hne
    | some content => exact congrArg some hwritten
  subst hsome
  refine ⟨_, hvisit, ?_⟩
  apply Reads.closetag (visitEvent_closed hplain rfl)
  apply Reads.closetag (visitEvent_closed_cell (hdecode style) _) Reads.nil
  intro other hother
  cases hother
  exact hlimit

theorem reads_inlineCell (text : ScriptString) (header : Bool) (hdepth : depth < 60)
    (hcolumn : column < 16384) (hlast : lastColumn ≤ column) (hrow : 0 < row.index)
    (hfits : row.index < 10000000) (hcount : counted < 1000000)
    (hlimit : text.length ≤ spreadsheetLimits.cellTextLength) :
    Reads (sheetVisitor context)
      ((inlineCell (reference column row.index) text header).flatMap XmlToken.events)
      { depth, state := inRow finished row lastColumn counted }
      { depth
        state := inRow finished (row.hold (column + 1) (textCellOf Number text)) (column + 1)
          (counted + 1) } := by
  have hinline : localName "is" = "is" := by decide
  have hplain : localName "t" = "t" := by decide
  rcases @visitEvent_cell _ _ context depth _ _ _ _ _ finished _
    (readsAs_inline (reference column row.index) text header) (by omega) hcolumn
    hlast hrow hfits hcount with ⟨style, hopen⟩
  apply Reads.opentag hopen
  apply Reads.opentag (visitEvent_opened (by omega) (by decide) hinline rfl)
  apply Reads.opentag (visitEvent_opened (by omega) (by decide) hplain rfl)
  apply Reads.text
  intro pieces hpieces
  have hread := @visitEvents_pieces _ _ context (depth + 1 + 1 + 1) pieces finished row
    { column := column + 1, type := some (scriptString "inlineStr"), style, value := none,
      inlineText := none } .inlineText (counted + 1)
  rw [hpieces] at hread
  rcases hread (excelText_within_limit hlimit) with ⟨written, hwritten, hvisit⟩
  have hdecode : decodeCell
      { column := column + 1, type := some (scriptString "inlineStr"), style, value := none,
        inlineText := written } context = .ok (textCellOf Number text) := by
    rw [← textCell_decodedText, decodedText,
      ← show written.getD [] = excelText text from hwritten]
    rfl
  refine ⟨_, hvisit, ?_⟩
  apply Reads.closetag (visitEvent_closed hplain rfl)
  apply Reads.closetag (visitEvent_closed hinline rfl)
  apply Reads.closetag (visitEvent_closed_cell hdecode _) Reads.nil
  intro value hvalue
  rw [textCellOf] at hvalue
  split at hvalue
  · cases hvalue
  · cases hvalue
    exact Nat.le_trans (length_decodedText_le text) hlimit

end

end

end Spreadsheets
end Pertexo
