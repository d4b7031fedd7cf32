import Pertexo.Spreadsheets.CellReading

/-!
# Reading written sheets

## Cells of a row
-/

namespace Pertexo
namespace Spreadsheets

open Library Values

section

variable {Number : Type}

@[simp] theorem index_hold (row : SheetRow Number) (column : Nat)
    (decoded : Option (Cell Number)) : (row.hold column decoded).index = row.index := by
  cases decoded with
  | none => rfl
  | some value => rfl

theorem cell?_hold {row : SheetRow Number} {column : Nat} (hfree : row.cell? column = none)
    (decoded : Option (Cell Number)) (other : Nat) :
    (row.hold column decoded).cell? other =
      if other = column then decoded else row.cell? other := by
  cases decoded with
  | none =>
      split
      · next heq =>
        rw [heq]
        exact hfree
      · rfl
  | some value =>
      rw [SheetRow.hold, SheetRow.cell?, Keyed.get?_set]
      by_cases heq : other = column
      · rw [if_pos heq, if_pos heq]
        rfl
      · rw [if_neg heq, if_neg heq]
        rfl

def SheetRow.holdAll (row : SheetRow Number) (column : Nat) :
    List (Option (Cell Number)) -> SheetRow Number
  | [] => row
  | decoded :: rest => (row.hold (column + 1) decoded).holdAll (column + 1) rest

@[simp] theorem index_holdAll (row : SheetRow Number) (column : Nat)
    (cells : List (Option (Cell Number))) : (row.holdAll column cells).index = row.index := by
  induction cells generalizing row column with
  | nil => rfl
  | cons decoded rest ih => rw [SheetRow.holdAll, ih, index_hold]

theorem cell?_holdAll {row : SheetRow Number} {column : Nat}
    (hfree : forall other, column < other -> row.cell? other = none)
    (cells : List (Option (Cell Number))) (other : Nat) :
    (row.holdAll column cells).cell? other =
      if column < other then cells[other - column - 1]?.join else row.cell? other := by
  induction cells generalizing row column with
  | nil =>
      rw [SheetRow.holdAll]
      split
      · next hlt => exact hfree other hlt
      · rfl
  | cons decoded rest ih =>
      have hhold := cell?_hold (hfree (column + 1) (Nat.lt_succ_self column)) decoded
      rw [SheetRow.holdAll, ih]
      · rw [hhold]
        by_cases hnext : other = column + 1
        · have hzero : other - column - 1 = 0 := by omega
          rw [if_neg (by omega), if_pos hnext, if_pos (by omega), hzero]
          rfl
        · by_cases hlt : column < other
          · have hsucc : other - column - 1 = (other - (column + 1) - 1) + 1 := by omega
            rw [if_pos (by omega), if_pos hlt, hsucc, List.getElem?_cons_succ]
          · rw [if_neg (by omega), if_neg hnext, if_neg hlt]
      · intro later hlater
        rw [hhold, if_neg (by omega)]
        exact hfree later (by omega)

def emptyRow (index : Nat) : SheetRow Number :=
  { index, cells := Keyed.empty }

theorem cell?_holdAll_emptyRow (index : Nat) (cells : List (Option (Cell Number)))
    (column : Nat) :
    ((emptyRow index : SheetRow Number).holdAll 0 cells).cell? (column + 1) =
      cells[column]?.join := by
  rw [cell?_holdAll fun _ _ => rfl, if_pos (Nat.succ_pos column)]
  rfl

/-!
## Reading rows
-/

def isWritten : Option (BoundedJsonValue Number) -> Bool
  | none => false
  | some .null => false
  | some _ => true

def writtenCount (source : SourceRow Number) (columns : List ScriptString) : Nat :=
  columns.countP fun name => isWritten (source.lookup name)

variable [SheetNumber Number] {context : CellContext} {depth : Nat}

theorem reads_cell {finished : List (SheetRow Number)} {row : SheetRow Number}
    {column lastColumn counted : Nat} {value : Option (BoundedJsonValue Number)}
    {tokens : List XmlToken} (hdates : forall kind, kind ∈ context.dateStyles -> kind = none)
    (hwritten : cell (reference column row.index) value row.index = .ok tokens)
    (hdepth : depth < 60) (hcolumn : column < 16384) (hlast : lastColumn ≤ column)
    (hrow : 0 < row.index) (hfits : row.index < 10000000)
    (hcount : counted + (if isWritten value then 1 else 0) ≤ 1000000) :
    exists last, last ≤ column + 1 ∧
      Reads (sheetVisitor context) (tokens.flatMap XmlToken.events)
        { depth, state := inRow finished row lastColumn counted }
        { depth
          state := inRow finished (row.hold (column + 1) (gridCell value)) last
            (counted + if isWritten value then 1 else 0) } := by
  have hbounded : forall text : ScriptString, counted < 1000000 ->
      boundedCell (reference column row.index) text row.index = .ok tokens ->
      Reads (sheetVisitor context) (tokens.flatMap XmlToken.events)
        { depth, state := inRow finished row lastColumn counted }
        { depth
          state := inRow finished (row.hold (column + 1) (textCellOf Number text)) (column + 1)
            (counted + 1) } := by
    intro text hfree htext
    rw [boundedCell] at htext
    split at htext
    · cases htext
    · next hlimit =>
      cases htext
      exact reads_inlineCell text false hdepth hcolumn hlast hrow hfits hfree
        (Nat.le_of_not_lt hlimit)
  cases value with
  | none =>
      cases hwritten
      exact ⟨lastColumn, by omega, Reads.nil⟩
  | some value =>
      cases value with
      | null =>
          cases hwritten
          exact ⟨lastColumn, by omega, Reads.nil⟩
      | bool value =>
          cases hwritten
          refine ⟨column + 1, le_rfl, ?_⟩
          have hfree : counted < 1000000 := hcount
          cases value with
          | true =>
              have hshort : (scriptString "TRUE").length ≤ 32767 := by decide
              exact reads_valueCell (readsAs_boolean _) hdepth hcolumn hlast hrow hfits hfree
                (by decide) (by decide) (fun style => rfl) hshort
          | false =>
              have hshort : (scriptString "FALSE").length ≤ 32767 := by decide
              exact reads_valueCell (readsAs_boolean _) hdepth hcolumn hlast hrow hfits hfree
                (by decide) (by decide) (fun style => rfl) hshort
      | number value =>
          cases hwritten
          refine ⟨column + 1, le_rfl, ?_⟩
          rcases numberText_spec value with ⟨_, _, hne, hshort⟩
          have htext : (numberCellOf value).text = numberText value := by
            rw [numberCellOf]
            split
            · rfl
            · rfl
          apply reads_valueCell (readsAs_number _) hdepth hcolumn hlast hrow hfits hcount hne hshort
          · intro style
            rw [← numberCell_numberText hdates value style]
            change Except.ok (if numberText value = [] then none
              else some (numberCell (numberText value) style context)) = _
            rw [if_neg hne]
          · rw [htext]
            exact Nat.le_trans hshort (by decide)
      | string text => exact ⟨column + 1, le_rfl, hbounded text hcount hwritten⟩
      | array items => exact ⟨column + 1, le_rfl, hbounded _ hcount hwritten⟩
      | object members => exact ⟨column + 1, le_rfl, hbounded _ hcount hwritten⟩

theorem reads_rowCells {finished : List (SheetRow Number)} {row : SheetRow Number}
    {source : SourceRow Number} {columns : List ScriptString} {column lastColumn counted : Nat}
    {tokens : List XmlToken} (hdates : forall kind, kind ∈ context.dateStyles -> kind = none)
    (hwritten : rowCells source row.index columns column = .ok tokens) (hdepth : depth < 60)
    (hcolumns : column + columns.length ≤ 16384) (hlast : lastColumn ≤ column)
    (hrow : 0 < row.index) (hfits : row.index < 10000000)
    (hcount : counted + writtenCount source columns ≤ 1000000) :
    exists last, Reads (sheetVisitor context) (tokens.flatMap XmlToken.events)
        { depth, state := inRow finished row lastColumn counted }
        { depth
          state := inRow finished
            (row.holdAll column (columns.map fun name => gridCell (source.lookup name))) last
            (counted + writtenCount source columns) } := by
  induction columns generalizing row column lastColumn counted tokens with
  | nil =>
      cases hwritten
      exact ⟨lastColumn, Reads.nil⟩
  | cons name rest ih =>
      rcases exists_of_bind_eq_ok hwritten with ⟨first, hfirst, hothers⟩
      rcases exists_of_bind_eq_ok hothers with ⟨others, hrest, htokens⟩
      cases htokens
      have hsum : writtenCount source (name :: rest) =
          (if isWritten (source.lookup name) then 1 else 0) + writtenCount source rest := by
        rw [writtenCount, List.countP_cons, Nat.add_comm]
        rfl
      rw [hsum] at hcount ⊢
      rw [List.length_cons] at hcolumns
      rcases @reads_cell _ _ context depth finished row column lastColumn counted _ _ hdates hfirst
        hdepth (by omega) hlast hrow hfits (by omega) with ⟨next, hnext, hreads⟩
      rcases @ih (row.hold (column + 1) (gridCell (source.lookup name))) (column + 1) next
        (counted + if isWritten (source.lookup name) then 1 else 0) others
        (by rwa [index_hold]) (by omega) hnext (by rwa [index_hold]) (by rwa [index_hold])
        (by omega) with ⟨last, hmore⟩
      exists last
      rw [List.flatMap_append, ← Nat.add_assoc]
      exact hreads.append hmore

theorem reads_headerCells {finished : List (SheetRow Number)} {row : SheetRow Number}
    {columns : List ScriptString} {column lastColumn counted : Nat} (hrow : row.index = 1)
    (hdepth : depth < 60) (hcolumns : column + columns.length ≤ 16384)
    (hlast : lastColumn ≤ column)
    (hnames : forall name, name ∈ columns -> name.length ≤ spreadsheetLimits.cellTextLength)
    (hcount : counted + columns.length ≤ 1000000) :
    exists last, Reads (sheetVisitor context) ((headerCells columns column).flatMap XmlToken.events)
        { depth, state := inRow finished row lastColumn counted }
        { depth
          state := inRow finished
            (row.holdAll column (columns.map fun name => textCellOf Number name)) last
            (counted + columns.length) } := by
  induction columns generalizing row column lastColumn counted with
  | nil => exact ⟨lastColumn, Reads.nil⟩
  | cons name rest ih =>
      rw [List.length_cons] at hcolumns hcount
      have hreads := @reads_inlineCell _ _ context depth finished row column lastColumn counted name
        true hdepth (by omega) hlast (by omega) (by omega) (by omega)
        (hnames name List.mem_cons_self)
      rw [hrow] at hreads
      rcases @ih (row.hold (column + 1) (textCellOf Number name)) (column + 1) (column + 1)
        (counted + 1) (by rwa [index_hold]) (by omega) le_rfl
        (fun other hother => hnames other (List.mem_cons_of_mem _ hother)) (by omega)
        with ⟨last, hmore⟩
      exists last
      have hsum : counted + (rest.length + 1) = counted + 1 + rest.length := by omega
      rw [headerCells, List.flatMap_append, List.length_cons, hsum]
      exact hreads.append hmore

/-!
## Reading a sheet
-/

def betweenRows (finished : List (SheetRow Number)) (lastRow lastColumn counted : Nat) :
    SheetReader Number :=
  { finished
    row := none
    cell := none
    target := none
    phonetic := 0
    lastRow
    lastColumn
    counted }

theorem visitEvent_opened_outside {finished : List (SheetRow Number)}
    {lastRow lastColumn counted : Nat} {name : String} {attributes : XmlAttributes}
    (hplain : localName name = name) (hname : name ≠ "row") (hdepth : depth < 64)
    (hfew : attributes.length ≤ 128) :
    visitEvent (sheetVisitor context)
        { depth, state := betweenRows finished lastRow lastColumn counted }
        (.opentag name attributes) =
      .ok { depth := depth + 1, state := betweenRows finished lastRow lastColumn counted } := by
  have hopened : openedTag (betweenRows finished lastRow lastColumn counted) name
      (localAttributes attributes) = .ok (betweenRows finished lastRow lastColumn counted) := by
    rw [openedTag, if_neg hname, if_neg fun h => Bool.noConfusion h.right,
      if_neg fun h => Bool.noConfusion h]
  rw [visitEvent, hplain, if_neg]
  · exact bind_eq_ok_iff.mpr ⟨_, hopened, rfl⟩
  · change ¬ (128 < attributes.length ∨ 64 < depth + 1)
    omega

theorem visitEvent_closed_outside {finished : List (SheetRow Number)}
    {lastRow lastColumn counted : Nat} {name : String} (hplain : localName name = name)
    (hname : name ≠ "rPh") :
    visitEvent (sheetVisitor context)
        { depth := depth + 1, state := betweenRows finished lastRow lastColumn counted }
        (.closetag name) =
      .ok { depth, state := betweenRows finished lastRow lastColumn counted } := by
  have hclosed : closedTag context (betweenRows finished lastRow lastColumn counted) name =
      .ok (betweenRows finished lastRow lastColumn counted) := by
    rw [closedTag, if_neg hname]
    split
    · rfl
    · split
      · rfl
      · split
        · rfl
        · rfl
  rw [visitEvent, hplain]
  exact bind_eq_ok_iff.mpr ⟨_, hclosed, rfl⟩

theorem reads_row {finished : List (SheetRow Number)} {lastRow lastColumn counted next : Nat}
    {cells : List XmlToken} {row : SheetRow Number} (hdepth : depth < 59)
    (hrows : lastRow < 1048576) (hindex : row.index = lastRow + 1)
    (hcells : exists last, Reads (sheetVisitor context) (cells.flatMap XmlToken.events)
      { depth := depth + 1, state := inRow finished (emptyRow (lastRow + 1)) 0 counted }
      { depth := depth + 1, state := inRow finished row last next }) :
    exists last, Reads (sheetVisitor context)
      ((rowTokens (lastRow + 1) cells).flatMap XmlToken.events)
      { depth, state := betweenRows finished lastRow lastColumn counted }
      { depth, state := betweenRows (finished ++ [row]) (lastRow + 1) last next } := by
  rcases hcells with ⟨last, hcells⟩
  have hname : localName "row" = "row" := by decide
  have hplain : localAttributes [("r", decimal (lastRow + 1))] = [("r", decimal (lastRow + 1))] :=
    localAttributes_of_plain (by simp)
  have hwhole : SheetNumber.wholeNumber Number (decimal (lastRow + 1)) = some (lastRow + 1) :=
    SheetNumber.wholeNumber_decimal (lastRow + 1) (by omega)
  have hposition : rowPosition Number (some (decimal (lastRow + 1))) lastRow =
      .ok (lastRow + 1) := by
    rw [rowPosition, hwhole]
    change position (some (lastRow + 1)) lastRow 1048576 = _
    rw [position, Option.getD_some, if_neg (by omega)]
  exists last
  change Reads _
    (.opentag "row" _ :: ((cells ++ [XmlToken.closing "row"]).flatMap XmlToken.events)) _ _
  apply Reads.opentag
  · rw [visitEvent, if_neg, hname, hplain]
    · exact bind_eq_ok_iff.mpr ⟨inRow finished (emptyRow (lastRow + 1)) 0 counted,
        bind_eq_ok_iff.mpr ⟨_, hposition, rfl⟩, rfl⟩
    · change ¬ (128 < 1 ∨ 64 < depth + 1)
      omega
  rw [List.flatMap_append]
  apply hcells.append
  apply Reads.closetag _ Reads.nil
  rw [visitEvent, hname, ← hindex]
  rfl

/-- The cells of a data row, in the order of the columns. -/
def gridRow (columns : List ScriptString) (source : SourceRow Number) (index : Nat) :
    SheetRow Number :=
  (emptyRow index).holdAll 0 (columns.map fun name => gridCell (source.lookup name))

def headerGrid (columns : List ScriptString) : SheetRow Number :=
  (emptyRow 1).holdAll 0 (columns.map fun name => textCellOf Number name)

def gridRows (columns : List ScriptString) : List (SourceRow Number) -> Nat ->
    List (SheetRow Number)
  | [], _ => []
  | source :: rest, index => gridRow columns source (index + 1) :: gridRows columns rest (index + 1)

def writtenCells (columns : List ScriptString) (rows : List (SourceRow Number)) : Nat :=
  (rows.map fun source => writtenCount source columns).sum

theorem reads_dataRows {finished : List (SheetRow Number)} {columns : List ScriptString}
    {rows : List (SourceRow Number)} {lastRow lastColumn counted : Nat} {tokens : List XmlToken}
    (hdates : forall kind, kind ∈ context.dateStyles -> kind = none)
    (hwritten : dataRows columns rows lastRow = .ok tokens) (hdepth : depth < 59)
    (hcolumns : columns.length ≤ 16384) (hrows : lastRow + rows.length ≤ 1048576)
    (hcount : counted + writtenCells columns rows ≤ 1000000) :
    exists last, Reads (sheetVisitor context) (tokens.flatMap XmlToken.events)
      { depth, state := betweenRows finished lastRow lastColumn counted }
      { depth
        state := betweenRows (finished ++ gridRows columns rows lastRow) (lastRow + rows.length)
          last (counted + writtenCells columns rows) } := by
  induction rows generalizing finished lastRow lastColumn counted tokens with
  | nil =>
      cases hwritten
      exists lastColumn
      rw [gridRows, List.append_nil]
      exact Reads.nil
  | cons source rest ih =>
      rcases exists_of_bind_eq_ok hwritten with ⟨cells, hcells, hothers⟩
      rcases exists_of_bind_eq_ok hothers with ⟨others, hrest, htokens⟩
      cases htokens
      have hsum : writtenCells columns (source :: rest) =
          writtenCount source columns + writtenCells columns rest := rfl
      rw [hsum] at hcount ⊢
      rw [List.length_cons] at hrows
      have hread := @reads_rowCells _ _ context (depth + 1) finished (emptyRow (lastRow + 1)) source
        columns 0 0 counted cells hdates hcells (by omega) (by omega) le_rfl
        (Nat.succ_pos lastRow) (show lastRow + 1 < 10000000 by omega) (by omega)
      have hrow := @reads_row _ _ context depth finished lastRow lastColumn counted _ cells _ hdepth
        (by omega) (index_holdAll (emptyRow (lastRow + 1)) 0 _) hread
      rcases hrow with ⟨next, hrow⟩
      rcases @ih (finished ++ [gridRow columns source (lastRow + 1)]) (lastRow + 1) next
        (counted + writtenCount source columns) others hrest (by omega) (by omega)
        with ⟨last, hmore⟩
      have hlength : lastRow + 1 + rest.length = lastRow + (rest.length + 1) := by omega
      exists last
      rw [List.append_assoc, hlength, Nat.add_assoc counted] at hmore
      rw [List.flatMap_append, List.length_cons]
      exact hrow.append hmore

theorem visitEvents_pieces_outside {lastRow lastColumn counted : Nat}
    {finished : List (SheetRow Number)} (pieces : List ScriptString) :
    visitEvents (sheetVisitor context)
        { depth, state := betweenRows finished lastRow lastColumn counted }
        (pieces.map XmlEvent.text) =
      .ok { depth, state := betweenRows finished lastRow lastColumn counted } := by
  induction pieces with
  | nil => rfl
  | cons piece rest ih => exact visitEvents_cons rfl ih

theorem reads_sheetHead :
    Reads (sheetVisitor context)
      (.text (scriptString "\r\n") :: sheetHead.flatMap XmlToken.events)
      { depth := 0, state := (sheetReader 0 : SheetReader Number) }
      { depth := 2, state := betweenRows [] 0 0 0 } := by
  have hopen : forall (depth : Nat) (name : String) (attributes : XmlAttributes), depth < 64 ->
      attributes.length ≤ 128 -> localName name = name -> name ≠ "row" ->
      visitEvent (sheetVisitor context)
          { depth, state := betweenRows ([] : List (SheetRow Number)) 0 0 0 }
          (.opentag name attributes) =
        .ok { depth := depth + 1, state := betweenRows [] 0 0 0 } := by
    intro depth name attributes hdepth hfew hplain hname
    exact visitEvent_opened_outside hplain hname hdepth hfew
  have hclose : forall (depth : Nat) (name : String), localName name = name -> name ≠ "rPh" ->
      visitEvent (sheetVisitor context)
          { depth := depth + 1, state := betweenRows ([] : List (SheetRow Number)) 0 0 0 }
          (.closetag name) =
        .ok { depth, state := betweenRows [] 0 0 0 } := by
    intro depth name hplain hname
    exact visitEvent_closed_outside hplain hname
  apply Reads.text
  intro pieces _
  refine ⟨_, visitEvents_pieces_outside pieces, ?_⟩
  apply Reads.opentag (hopen 0 _ _ (by decide) (by decide) (by decide) (by decide))
  apply Reads.opentag (hopen 1 _ _ (by decide) (by decide) (by decide) (by decide))
  apply Reads.opentag (hopen 2 _ _ (by decide) (by decide) (by decide) (by decide))
  apply Reads.opentag (hopen 3 _ _ (by decide) (by decide) (by decide) (by decide))
  apply Reads.closetag (hclose 3 _ (by decide) (by decide))
  apply Reads.opentag (hopen 3 _ _ (by decide) (by decide) (by decide) (by decide))
  apply Reads.closetag (hclose 3 _ (by decide) (by decide))
  apply Reads.closetag (hclose 2 _ (by decide) (by decide))
  apply Reads.closetag (hclose 1 _ (by decide) (by decide))
  apply Reads.opentag (hopen 1 _ _ (by decide) (by decide) (by decide) (by decide))
  apply Reads.closetag (hclose 1 _ (by decide) (by decide))
  apply Reads.opentag (hopen 1 _ _ (by decide) (by decide) (by decide) (by decide))
  exact Reads.nil

/-- The rows of the sheet are the header and the grid of the data. -/
theorem reads_sheet {columns : List ScriptString} {rows : List (SourceRow Number)}
    {tokens : List XmlToken} (hdates : forall kind, kind ∈ context.dateStyles -> kind = none)
    (hwritten : sheetTokens columns rows = .ok tokens) (hcolumns : columns.length ≤ 16384)
    (hrows : rows.length < 1048576)
    (hnames : forall name, name ∈ columns -> name.length ≤ spreadsheetLimits.cellTextLength)
    (hcount : columns.length + writtenCells columns rows ≤ 1000000) :
    exists lastRow lastColumn,
      Reads (sheetVisitor context) (documentEvents tokens)
        { depth := 0, state := sheetReader 0 }
        { depth := 0
          state := betweenRows (headerGrid columns :: gridRows columns rows 1) lastRow lastColumn
            (columns.length + writtenCells columns rows) } := by
  rcases exists_of_bind_eq_ok hwritten with ⟨written, hdata, htokens⟩
  cases htokens
  have hcells := @reads_headerCells Number _ context 3 [] (emptyRow 1) columns 0 0 0 rfl (by decide)
    (by omega) le_rfl hnames (by omega)
  rw [Nat.zero_add] at hcells
  rcases @reads_row _ _ context 2 [] 0 0 0 _ _ _ (by decide) (by decide)
    (index_holdAll (emptyRow 1) 0 _) hcells with ⟨headerLast, hheader⟩
  rcases @reads_dataRows _ _ context 2 [headerGrid columns] columns rows 1 headerLast
    columns.length written hdates hdata (by decide) hcolumns (by omega) hcount with ⟨last, hrest⟩
  have hfoot : Reads (sheetVisitor context) (sheetFoot.flatMap XmlToken.events)
      { depth := 2
        state := betweenRows ([headerGrid columns] ++ gridRows columns rows 1) (1 + rows.length)
          last (columns.length + writtenCells columns rows) }
      { depth := 0
        state := betweenRows ([headerGrid columns] ++ gridRows columns rows 1) (1 + rows.length)
          last (columns.length + writtenCells columns rows) } := by
    apply Reads.closetag (visitEvent_closed_outside (by decide) (by decide))
    exact Reads.closetag (visitEvent_closed_outside (by decide) (by decide)) Reads.nil
  exists 1 + rows.length, last
  rw [documentEvents, List.flatMap_append, List.flatMap_append, List.flatMap_append,
    ← List.cons_append, ← List.cons_append, ← List.cons_append]
  exact ((reads_sheetHead.append hheader).append hrest).append hfoot

end

end Spreadsheets
end Pertexo
