import Pertexo.Spreadsheets.SheetReading
import Pertexo.Spreadsheets.SheetRecords
import Pertexo.Values.JsonText

/-!
# Written grids read back

## No merged areas

The writer merges nothing, so the pass over the merged areas finds none.
-/

namespace Pertexo
namespace Spreadsheets

open Library Values

def XmlEvent.MergesNothing : XmlEvent -> Prop
  | .opentag name _ => localName name ≠ "mergeCell"
  | .text _ => True
  | .closetag _ => True

theorem mergesNothing_of_splits {events reported : List XmlEvent}
    (h : SplitsTexts events reported) (hall : forall event, event ∈ events -> event.MergesNothing) :
    forall event, event ∈ reported -> event.MergesNothing := by
  induction h with
  | nil => exact hall
  | opentag name attributes _ ih =>
      rw [List.forall_mem_cons] at hall ⊢
      exact ⟨hall.left, ih hall.right⟩
  | closetag name _ ih =>
      rw [List.forall_mem_cons] at hall ⊢
      exact ⟨hall.left, ih hall.right⟩
  | text pieces _ ih =>
      rw [List.forall_mem_cons] at hall
      intro event hevent
      rcases List.mem_append.mp hevent with hpiece | hrest
      · rcases List.mem_map.mp hpiece with ⟨piece, _, rfl⟩
        trivial
      · exact ih hall.right event hrest

/-- The bounds of a part do not depend on its visitor. -/
theorem visitMerges_of_visit {σ : Type} {visitor : XmlVisitor σ} {start finish : Visited σ}
    {events : List XmlEvent} (h : visitEvents visitor start events = .ok finish)
    (hall : forall event, event ∈ events -> event.MergesNothing) (areas : List MergedArea) :
    visitEvents mergeVisitor { depth := start.depth, state := areas } events =
      .ok { depth := finish.depth, state := areas } := by
  induction events generalizing start with
  | nil =>
      cases h
      rfl
  | cons event rest ih =>
      rw [List.forall_mem_cons] at hall
      rw [visitEvents, List.foldlM_cons] at h
      rcases exists_of_bind_eq_ok h with ⟨next, hevent, hrest⟩
      apply visitEvents_cons _ (ih hrest hall.right)
      cases event with
      | opentag name attributes =>
          rw [visitEvent] at hevent ⊢
          split at hevent
          · cases hevent
          · next hbounds =>
            rcases exists_of_bind_eq_ok hevent with ⟨state, _, hnext⟩
            cases hnext
            rw [if_neg hbounds]
            have hopened : openedMerge areas (localName name) (localAttributes attributes) =
                .ok areas := by
              rw [openedMerge]
              split
              · exact if_pos hall.left
              · rfl
            exact bind_eq_ok_iff.mpr ⟨areas, hopened, rfl⟩
      | text content =>
          rcases exists_of_bind_eq_ok hevent with ⟨state, _, hnext⟩
          cases hnext
          rfl
      | closetag name =>
          rcases exists_of_bind_eq_ok hevent with ⟨state, _, hnext⟩
          cases hnext
          rfl

section

variable {Number : Type}

theorem mergesNothing_append {first second : List XmlToken}
    (hfirst : forall event, event ∈ first.flatMap XmlToken.events -> event.MergesNothing)
    (hsecond : forall event, event ∈ second.flatMap XmlToken.events -> event.MergesNothing) :
    forall event, event ∈ (first ++ second).flatMap XmlToken.events -> event.MergesNothing := by
  intro event hevent
  rw [List.flatMap_append] at hevent
  rcases List.mem_append.mp hevent with hmem | hmem
  · exact hfirst event hmem
  · exact hsecond event hmem

theorem mergesNothing_inlineCell (reference text : ScriptString) (header : Bool) :
    forall event, event ∈ (inlineCell reference text header).flatMap XmlToken.events ->
      event.MergesNothing := by
  have hnames : localName "c" ≠ "mergeCell" ∧ localName "is" ≠ "mergeCell" ∧
      localName "t" ≠ "mergeCell" := by
    decide
  simp [inlineCell, XmlToken.events, XmlEvent.MergesNothing, hnames]

theorem mergesNothing_valueCell (attributes : XmlAttributes) (value : ScriptString) :
    forall event, event ∈ (valueCell attributes value).flatMap XmlToken.events ->
      event.MergesNothing := by
  have hnames : localName "c" ≠ "mergeCell" ∧ localName "v" ≠ "mergeCell" := by
    decide
  simp [valueCell, XmlToken.events, XmlEvent.MergesNothing, hnames]

theorem mergesNothing_headerCells (columns : List ScriptString) (column : Nat) :
    forall event, event ∈ (headerCells columns column).flatMap XmlToken.events ->
      event.MergesNothing := by
  induction columns generalizing column with
  | nil =>
      intro event hevent
      cases hevent
  | cons name rest ih => exact mergesNothing_append (mergesNothing_inlineCell _ name true) (ih _)

theorem mergesNothing_rowTokens {index : Nat} {cells : List XmlToken}
    (h : forall event, event ∈ cells.flatMap XmlToken.events -> event.MergesNothing) :
    forall event, event ∈ (rowTokens index cells).flatMap XmlToken.events ->
      event.MergesNothing := by
  have hname : localName "row" ≠ "mergeCell" := by decide
  have hfirst : forall event,
      event ∈ [XmlToken.opening "row" [("r", decimal index)] false].flatMap XmlToken.events ->
      event.MergesNothing := by
    simp [XmlToken.events, XmlEvent.MergesNothing, hname]
  have hlast : forall event, event ∈ [XmlToken.closing "row"].flatMap XmlToken.events ->
      event.MergesNothing := by
    simp [XmlToken.events, XmlEvent.MergesNothing]
  exact mergesNothing_append (mergesNothing_append hfirst h) hlast

variable [SheetNumber Number]

theorem mergesNothing_cell {reference : ScriptString} {value : Option (BoundedJsonValue Number)}
    {row : Nat} {tokens : List XmlToken} (h : cell reference value row = .ok tokens) :
    forall event, event ∈ tokens.flatMap XmlToken.events -> event.MergesNothing := by
  have hbounded : forall text, boundedCell reference text row = .ok tokens ->
      forall event, event ∈ tokens.flatMap XmlToken.events -> event.MergesNothing := by
    intro text htext
    rw [boundedCell] at htext
    split at htext
    · cases htext
    · cases htext
      exact mergesNothing_inlineCell reference text false
  cases value with
  | none =>
      cases h
      exact fun event hevent => absurd hevent List.not_mem_nil
  | some value =>
      cases value with
      | null =>
          cases h
          exact fun event hevent => absurd hevent List.not_mem_nil
      | bool value =>
          cases h
          exact mergesNothing_valueCell _ _
      | number value =>
          cases h
          exact mergesNothing_valueCell _ _
      | string text => exact hbounded text h
      | array items => exact hbounded _ h
      | object members => exact hbounded _ h

theorem mergesNothing_rowCells {source : SourceRow Number} {index column : Nat}
    {columns : List ScriptString} {tokens : List XmlToken}
    (h : rowCells source index columns column = .ok tokens) :
    forall event, event ∈ tokens.flatMap XmlToken.events -> event.MergesNothing := by
  induction columns generalizing column tokens with
  | nil =>
      cases h
      exact fun event hevent => nomatch hevent
  | cons name rest ih =>
      rcases exists_of_bind_eq_ok h with ⟨first, hfirst, hothers⟩
      rcases exists_of_bind_eq_ok hothers with ⟨others, hrest, htokens⟩
      cases htokens
      exact mergesNothing_append (mergesNothing_cell hfirst) (ih hrest)

theorem mergesNothing_dataRows {columns : List ScriptString} {rows : List (SourceRow Number)}
    {index : Nat} {tokens : List XmlToken} (h : dataRows columns rows index = .ok tokens) :
    forall event, event ∈ tokens.flatMap XmlToken.events -> event.MergesNothing := by
  induction rows generalizing index tokens with
  | nil =>
      cases h
      exact fun event hevent => nomatch hevent
  | cons source rest ih =>
      rcases exists_of_bind_eq_ok h with ⟨cells, hcells, hothers⟩
      rcases exists_of_bind_eq_ok hothers with ⟨others, hrest, htokens⟩
      cases htokens
      exact mergesNothing_append (mergesNothing_rowTokens (mergesNothing_rowCells hcells))
        (ih hrest)

theorem mergesNothing_sheet {columns : List ScriptString} {rows : List (SourceRow Number)}
    {tokens : List XmlToken} (h : sheetTokens columns rows = .ok tokens) :
    forall event, event ∈ documentEvents tokens -> event.MergesNothing := by
  rcases exists_of_bind_eq_ok h with ⟨written, hdata, htokens⟩
  cases htokens
  have hnames : forall name,
      name ∈ ["worksheet", "sheetViews", "sheetView", "pane", "selection", "sheetFormatPr",
        "sheetData"] -> localName name ≠ "mergeCell" := by
    decide
  simp only [List.forall_mem_cons, List.not_mem_nil, false_implies, implies_true, and_true]
    at hnames
  have hhead : forall event, event ∈ sheetHead.flatMap XmlToken.events -> event.MergesNothing := by
    simp [sheetHead, XmlToken.events, XmlEvent.MergesNothing, hnames]
  have hfoot : forall event, event ∈ sheetFoot.flatMap XmlToken.events -> event.MergesNothing := by
    simp [sheetFoot, XmlToken.events, XmlEvent.MergesNothing]
  intro event hevent
  rcases List.mem_cons.mp hevent with rfl | hevent
  · trivial
  · exact mergesNothing_append
      (mergesNothing_append
        (mergesNothing_append hhead
          (mergesNothing_rowTokens (mergesNothing_headerCells columns 0)))
        (mergesNothing_dataRows hdata)) hfoot event hevent

end

/-!
## Headers
-/

section

variable {Number : Type}

theorem mem_columns_iff {row : SheetRow Number} {column : Nat} :
    column ∈ row.columns ↔ (row.cell? column).isSome = true := by
  rw [SheetRow.columns, List.mem_map, SheetRow.cell?, Option.isSome_map, Option.isSome_iff_exists]
  constructor
  · intro h
    rcases h with ⟨item, hitem, rfl⟩
    exact ⟨item, Keyed.get?_of_mem hitem⟩
  · intro h
    rcases h with ⟨item, hitem⟩
    exact ⟨item, Keyed.mem_of_get? hitem, Keyed.key_of_get? hitem⟩

theorem admitNames_eq_ok {unique names : List ScriptString} {index : Nat}
    (hunique : names.Nodup) (hnew : forall name, name ∈ names -> name ∉ unique)
    (hnonblank : forall name, name ∈ names -> trim name ≠ []) :
    admitNames unique index names = .ok () := by
  induction names generalizing unique index with
  | nil => rfl
  | cons name rest ih =>
      rw [List.nodup_cons] at hunique
      show (if trim name = [] then .error (.blank_header (index + 1))
        else if name ∈ unique then .error (.duplicate_header (index + 1) false)
        else admitNames (name :: unique) (index + 1) rest) = Except.ok ()
      rw [if_neg (hnonblank name List.mem_cons_self), if_neg (hnew name List.mem_cons_self)]
      apply ih hunique.right
      · intro other hother hmem
        rcases List.mem_cons.mp hmem with rfl | hunit
        · exact hunique.left hother
        · exact hnew other (List.mem_cons_of_mem _ hother) hunit
      · exact fun other hother => hnonblank other (List.mem_cons_of_mem _ hother)

theorem foldl_max_eq {columns : List Nat} {width start : Nat} (hstart : start ≤ width)
    (hle : forall column, column ∈ columns -> column ≤ width)
    (hmem : width ∈ columns ∨ start = width) : columns.foldl max start = width := by
  induction columns generalizing start with
  | nil =>
      rcases hmem with hmem | heq
      · cases hmem
      · exact heq
  | cons column rest ih =>
      rw [List.forall_mem_cons] at hle
      apply ih (Nat.max_le.mpr ⟨hstart, hle.left⟩) hle.right
      rcases hmem with hmem | heq
      · rcases List.mem_cons.mp hmem with rfl | hrest
        · exact Or.inr (Nat.max_eq_right hstart)
        · exact Or.inl hrest
      · rw [heq]
        exact Or.inr (Nat.max_eq_left hle.left)

/-- The names that the reader finds in the header row. -/
def decodedNames (columns : List ScriptString) : List ScriptString :=
  columns.map decodedText

/-- Columns that the reader admits as headers. -/
structure ReadableColumns (columns : List ScriptString) : Prop where
  nonempty : columns ≠ []
  few : columns.length ≤ 10000
  short : forall name, name ∈ columns -> name.length ≤ spreadsheetLimits.cellTextLength
  unique : (decodedNames columns).Nodup
  nonblank : forall name, name ∈ decodedNames columns -> trim name ≠ []

theorem cell?_headerGrid (columns : List ScriptString) (column : Nat) :
    (headerGrid columns : SheetRow Number).cell? (column + 1) =
      (columns[column]?).bind fun name => textCellOf Number name := by
  rw [headerGrid, cell?_holdAll_emptyRow, List.getElem?_map]
  cases columns[column]? with
  | none => rfl
  | some name => rfl

theorem textCellOf_of_nonblank {name : ScriptString} (h : trim (decodedText name) ≠ []) :
    textCellOf Number name =
      some { value := .text (decodedText name), text := decodedText name } := by
  rw [textCellOf, if_neg]
  intro hempty
  apply h
  rw [decodedText_eq_nil_iff.mpr hempty]
  rfl

theorem headerNames_headerGrid {columns : List ScriptString} (h : ReadableColumns columns)
    (own : List Nat) :
    headerNames (headerGrid columns : SheetRow Number) own = .ok (decodedNames columns) := by
  have hcell : forall column name, columns[column]? = some name ->
      (headerGrid columns : SheetRow Number).cell? (column + 1) =
        some { value := .text (decodedText name), text := decodedText name } := by
    intro column name hat
    rw [cell?_headerGrid, hat, Option.bind_some]
    apply textCellOf_of_nonblank
    exact h.nonblank _ (List.mem_map_of_mem (List.mem_of_getElem? hat))
  have hpos := List.length_pos_iff.mpr h.nonempty
  have hwidth : (headerGrid columns : SheetRow Number).columns.foldl max 0 = columns.length := by
    apply foldl_max_eq (Nat.zero_le _)
    · intro column hcolumn
      rw [mem_columns_iff] at hcolumn
      cases column with
      | zero => exact Nat.zero_le _
      | succ index =>
          rw [cell?_headerGrid] at hcolumn
          by_contra hlarge
          rw [List.getElem?_eq_none (by omega)] at hcolumn
          cases hcolumn
    · apply Or.inl
      have hsucc : columns.length - 1 + 1 = columns.length := by omega
      rw [mem_columns_iff, ← hsucc,
        hcell (columns.length - 1) _ (List.getElem?_eq_getElem (by omega))]
      rfl
  have hnames : ((List.range columns.length).map fun index =>
      (((headerGrid columns : SheetRow Number).cell? (index + 1)).map Cell.text).getD []) =
        decodedNames columns := by
    apply List.ext_getElem
    · rw [List.length_map, List.length_range, decodedNames, List.length_map]
    · intro index hindex _
      rw [List.length_map, List.length_range] at hindex
      simp only [List.getElem_map, List.getElem_range, decodedNames]
      rw [hcell index _ (List.getElem?_eq_getElem hindex)]
      rfl
  have hadmit : admitHeaders (decodedNames columns) = .ok (decodedNames columns) := by
    rw [admitHeaders, if_neg]
    · exact bind_eq_ok_iff.mpr ⟨(), admitNames_eq_ok h.unique (fun _ _ hmem => nomatch hmem)
        h.nonblank, rfl⟩
    · rw [decodedNames, List.length_map]
      exact Nat.not_lt.mpr h.few
  rw [headerNames, hwidth, hnames, hadmit]
  rfl

/-!
## Records
-/

variable [SheetNumber Number]

def hasCell (columns : List ScriptString) (source : SourceRow Number) : Bool :=
  columns.any fun name => (gridCell (source.lookup name)).isSome

/-- A source row as a record: keyed by the columns' names as decoded. -/
def recordOf (columns : List ScriptString) (convertValues : Bool) (source : SourceRow Number) :
    SheetRecord Number :=
  fromEntries (columns.map fun name =>
    (decodedText name, recordValue (gridCell (source.lookup name)) convertValues))

theorem cell?_gridRow (columns : List ScriptString) (source : SourceRow Number)
    (index column : Nat) :
    (gridRow columns source index).cell? (column + 1) =
      (columns[column]?).bind fun name => gridCell (source.lookup name) := by
  rw [gridRow, cell?_holdAll_emptyRow, List.getElem?_map]
  cases columns[column]? with
  | none => rfl
  | some name => rfl

theorem cell?_gridRow_zero (columns : List ScriptString) (source : SourceRow Number)
    (index : Nat) : (gridRow columns source index).cell? 0 = none := by
  rw [gridRow, cell?_holdAll fun _ _ => rfl, if_neg (Nat.lt_irrefl 0)]
  rfl

theorem items_gridRow_eq_nil_iff (columns : List ScriptString) (source : SourceRow Number)
    (index : Nat) : (gridRow columns source index).cells.items = [] ↔
      hasCell columns source = false := by
  have hcolumns : (gridRow columns source index).cells.items = [] ↔
      (gridRow columns source index).columns = [] := by
    rw [SheetRow.columns, List.map_eq_nil_iff]
  rw [hcolumns, List.eq_nil_iff_forall_not_mem, ← Bool.not_eq_true, hasCell, List.any_eq_true,
    not_exists]
  constructor
  · intro hnone name hname
    rcases List.getElem?_of_mem hname.left with ⟨column, hat⟩
    apply hnone (column + 1)
    rw [mem_columns_iff, cell?_gridRow, hat]
    exact hname.right
  · intro hnone column hcolumn
    rw [mem_columns_iff] at hcolumn
    cases column with
    | zero =>
        rw [cell?_gridRow_zero] at hcolumn
        cases hcolumn
    | succ index =>
        rw [cell?_gridRow] at hcolumn
        cases hat : columns[index]? with
        | none =>
            rw [hat] at hcolumn
            cases hcolumn
        | some name =>
            rw [hat] at hcolumn
            exact hnone name ⟨List.mem_of_getElem? hat, hcolumn⟩

/-- A reader of records behind the header, with no merged areas. -/
def pastHeader (columns : List ScriptString) (counted : Nat) (records : List (SheetRecord Number)) :
    RecordReader Number :=
  { merges := { pending := [], active := [] }
    counted
    headers := some (decodedNames columns)
    records }

theorem dataRow_gridRow (columns : List ScriptString) (source : SourceRow Number)
    (index counted : Nat) (convertValues : Bool) (records : List (SheetRecord Number)) :
    dataRow (gridRow columns source index) (decodedNames columns) convertValues
        (pastHeader columns counted records) =
      .ok (pastHeader columns counted (records ++ [recordOf columns convertValues source])) := by
  have hinside : (gridRow columns source index).columns.find?
      (fun column => decide ((decodedNames columns).length < column)) = none := by
    rw [List.find?_eq_none]
    intro column hcolumn hlarge
    rw [decide_eq_true_eq, decodedNames, List.length_map] at hlarge
    rw [mem_columns_iff] at hcolumn
    cases column with
    | zero => exact absurd hlarge (Nat.not_lt_zero _)
    | succ index =>
        rw [cell?_gridRow, List.getElem?_eq_none (by omega)] at hcolumn
        cases hcolumn
  have hentries : ((decodedNames columns).mapIdx fun index' name =>
      (name, recordValue ((gridRow columns source index).cell? (index' + 1)) convertValues)) =
      columns.map fun name =>
        (decodedText name, recordValue (gridCell (source.lookup name)) convertValues) := by
    apply List.ext_getElem
    · simp [decodedNames]
    · intro column hcolumn _
      simp only [List.length_mapIdx, decodedNames, List.length_map] at hcolumn
      simp only [List.getElem_mapIdx, List.getElem_map, decodedNames, cell?_gridRow,
        List.getElem?_eq_getElem hcolumn, Option.bind_some]
  rw [dataRow, hinside]
  dsimp only
  change Except.ok _ = _
  rw [hentries]
  rfl

theorem readRecords_gridRows (config : XlsxConfig) (hheader : config.headerRow = 1)
    (columns : List ScriptString) {rows : List (SourceRow Number)} {index counted : Nat}
    (hindex : 1 ≤ index) {records : List (SheetRecord Number)} :
    readRecords config (gridRows columns rows index) (pastHeader columns counted records) =
      .ok (pastHeader columns counted
        (records ++ (rows.filter (hasCell columns)).map
          (recordOf columns config.convertValues))) := by
  induction rows generalizing index records with
  | nil =>
      rw [List.filter_nil, List.map_nil, List.append_nil]
      rfl
  | cons source rest ih =>
      have hbelow : ¬ (gridRow columns source (index + 1)).index < config.headerRow := by
        rw [gridRow, index_holdAll, hheader]
        exact Nat.not_lt.mpr (Nat.le_add_left 1 index)
      rw [gridRows, readRecords]
      cases hcell : hasCell columns source with
      | false =>
          rw [if_pos (Or.inr ((items_gridRow_eq_nil_iff _ _ _).mpr hcell)),
            List.filter_cons_of_neg (by rw [hcell]; exact Bool.false_ne_true)]
          exact ih (Nat.le_succ_of_le hindex)
      | true =>
          rw [if_neg, List.filter_cons_of_pos hcell, List.map_cons]
          · have hrow := dataRow_gridRow columns source (index + 1) counted config.convertValues
              records
            apply bind_eq_ok_iff.mpr ⟨_, hrow, _⟩
            rw [ih (Nat.le_succ_of_le hindex), List.append_assoc, List.singleton_append]
          · rw [not_or, items_gridRow_eq_nil_iff, hcell]
            exact ⟨hbelow, Bool.noConfusion⟩

theorem readRecords_sheet (config : XlsxConfig) (hheader : config.headerRow = 1)
    {columns : List ScriptString} (h : ReadableColumns columns) (rows : List (SourceRow Number))
    (counted : Nat) :
    readRecords config (headerGrid columns :: gridRows columns rows 1)
        { merges := mergedFill [], counted, headers := none, records := [] } =
      .ok (pastHeader columns counted
        ((rows.filter (hasCell columns)).map (recordOf columns config.convertValues))) := by
  have hindex : (headerGrid columns : SheetRow Number).index = 1 := index_holdAll _ _ _
  have hitems : (headerGrid columns : SheetRow Number).cells.items ≠ [] := by
    intro hempty
    have hpos := List.length_pos_iff.mpr h.nonempty
    have hfirst : (1 : Nat) ∈ (headerGrid columns : SheetRow Number).columns := by
      rw [mem_columns_iff, cell?_headerGrid, List.getElem?_eq_getElem hpos, Option.bind_some,
        textCellOf_of_nonblank]
      · rfl
      · exact h.nonblank _ (List.mem_map_of_mem (List.getElem_mem hpos))
    rw [SheetRow.columns, hempty] at hfirst
    cases hfirst
  have hmerges : (mergedFill [] : MergedFill Number) = { pending := [], active := [] } := by
    simp [mergedFill]
  rw [hmerges, readRecords, if_neg]
  · change (if config.headerRow < (headerGrid columns : SheetRow Number).index then _ else _) = _
    rw [hindex, if_neg (by omega)]
    have hnames := @headerNames_headerGrid Number _ h (headerGrid columns :
      SheetRow Number).columns
    have hrow : headerRow (headerGrid columns : SheetRow Number)
        { merges := { pending := [], active := [] }, counted, headers := none, records := [] } =
        .ok (pastHeader columns counted []) := by
      change (headerNames (headerGrid columns : SheetRow Number) _ >>= _) = _
      rw [hnames]
      rfl
    apply bind_eq_ok_iff.mpr ⟨_, hrow, _⟩
    exact readRecords_gridRows config hheader columns le_rfl
  · rw [not_or, hindex, hheader]
    exact ⟨Nat.lt_irrefl 1, hitems⟩

theorem getElem?_gridRows (columns : List ScriptString) (rows : List (SourceRow Number))
    (index i : Nat) :
    (gridRows columns rows index)[i]? =
      (rows[i]?).map fun source => gridRow columns source (index + i + 1) := by
  induction rows generalizing index i with
  | nil => rfl
  | cons source rest ih =>
      cases i with
      | zero => rfl
      | succ i =>
          have hsum : index + 1 + i + 1 = index + (i + 1) + 1 := by omega
          rw [gridRows, List.getElem?_cons_succ, List.getElem?_cons_succ, ih, hsum]

theorem length_gridRows (columns : List ScriptString) (rows : List (SourceRow Number))
    (index : Nat) : (gridRows columns rows index).length = rows.length := by
  induction rows generalizing index with
  | nil => rfl
  | cons source rest ih => rw [gridRows, List.length_cons, List.length_cons, ih]

/-!
## The round trip
-/

/-- The grid of a written sheet is read back at the written positions, and its rows
with a cell as records, in order. -/
theorem worksheet_round_trip (parse : ScriptString -> List XmlEvent) {context : CellContext}
    {columns : List ScriptString} {rows : List (SourceRow Number)} {xml : ScriptString}
    (hwritten : sheetXml columns rows = .ok xml)
    (hparse : forall tokens, sheetTokens columns rows = .ok tokens ->
      ReportsDocument parse tokens)
    (hdates : forall kind, kind ∈ context.dateStyles -> kind = none)
    (hcolumns : ReadableColumns columns) (hrows : rows.length < workbookLimits.rows)
    (hcells : columns.length + writtenCells columns rows ≤ workbookLimits.cells)
    (convertValues : Bool) :
    (exists header grid counted,
      readSheetRows context 0 (parse xml) =
        .ok ((header : SheetRow Number) :: grid, counted) ∧
      header.index = 1 ∧ grid.length = rows.length ∧
      forall i source, rows[i]? = some source -> exists row : SheetRow Number,
        grid[i]? = some row ∧ row.index = i + 2 ∧ row.cell? 0 = none ∧
        forall j, row.cell? (j + 1) =
          (columns[j]?).bind fun name => gridCell (source.lookup name)) ∧
    readXlsxRecords context { headerRow := 1, convertValues } (parse xml) =
      .ok ((rows.filter (hasCell columns)).map (recordOf columns convertValues)) := by
  rcases exists_of_map_eq_ok hwritten with ⟨tokens, htokens, hxml⟩
  have hsplits := hparse tokens htokens
  rw [ReportsDocument, hxml] at hsplits
  have hfew : columns.length ≤ 16384 := Nat.le_trans hcolumns.few (by decide)
  rcases @reads_sheet _ _ context _ _ _ hdates htokens hfew hrows hcolumns.short hcells with
    ⟨lastRow, lastColumn, hreads⟩
  have hread : readSheetRows context 0 (parse xml) =
      .ok ((headerGrid columns : SheetRow Number) :: gridRows columns rows 1,
        columns.length + writtenCells columns rows) :=
    bind_eq_ok_iff.mpr ⟨_, readXml_of_reads hreads hsplits, rfl⟩
  have hmerges : readMergedAreas (parse xml) = .ok [] :=
    bind_eq_ok_iff.mpr ⟨_, visitMerges_of_visit (hreads _ hsplits)
      (mergesNothing_of_splits hsplits (mergesNothing_sheet htokens)) [], rfl⟩
  constructor
  · refine ⟨_, _, _, hread, index_holdAll _ _ _, length_gridRows columns rows 1, ?_⟩
    intro i source hsource
    exists gridRow columns source (1 + i + 1)
    refine ⟨?_, ?_, cell?_gridRow_zero columns source _, cell?_gridRow columns source _⟩
    · rw [getElem?_gridRows, hsource]
      rfl
    · rw [gridRow, index_holdAll]
      change 1 + i + 1 = i + 2
      omega
  · apply bind_eq_ok_iff.mpr ⟨[], hmerges, _⟩
    apply bind_eq_ok_iff.mpr ⟨_, hread, _⟩
    apply bind_eq_ok_iff.mpr ⟨_, readRecords_sheet { headerRow := 1, convertValues } rfl hcolumns
      rows (columns.length + writtenCells columns rows), _⟩
    rfl

end

/-!
The safe natural numbers are script numbers; their texts are their digits.
-/

instance : ScriptNumber (Fin (2 ^ 53)) where
  zero := 0
  text := fun n => Nat.toDigits 10 n.val
  read := fun text =>
    let value := Nat.ofDigitChars 10 text 0
    if h : value < 2 ^ 53 then .finite ⟨value, h⟩ else .notFinite
  isNumberLiteral_text := fun n => ScriptNumber.isNumberLiteral_text n.val
  read_text := by
    intro n
    simp

theorem digitsValue_decimal (n : Nat) : digitsValue (decimal n) = n := by
  have hdigits : forall (digits : List Char) (value : Nat),
      (forall c, c ∈ digits -> c.isDigit = true) ->
      (digits.map digitUnit).foldl (fun value unit => value * 10 + (unit.toNat - 48)) value =
        Nat.ofDigitChars 10 digits value := by
    intro digits
    induction digits with
    | nil => exact fun _ _ => rfl
    | cons c rest ih =>
        intro value hall
        rw [List.map_cons, List.foldl_cons,
          (charUnits_digit (hall c List.mem_cons_self)).right.right,
          ih _ fun d hd => hall d (List.mem_cons_of_mem _ hd), Nat.ofDigitChars_cons,
          Nat.mul_comm]
        rfl
  rw [digitsValue, decimal_eq, hdigits _ _ fun c hc => Nat.isDigit_of_mem_toDigits (by decide)
    (by decide) hc]
  simp

instance : SheetNumber (Fin (2 ^ 53)) where
  isInteger := fun _ => true
  isSafeInteger := fun _ => true
  isoDate := fun _ _ _ => none
  wholeNumber := fun text => if text.all isDigitUnit = true then some (digitsValue text) else none
  wholeNumber_decimal := by
    intro n _
    rw [if_pos (List.all_eq_true.mpr isDigitUnit_decimal), digitsValue_decimal]
  length_text_le := by
    intro n
    exact (Nat.length_toDigits_le_iff (by decide) (by decide)).mpr
      (Nat.lt_trans n.isLt (by decide))

def sampleContext : CellContext :=
  { sharedStrings := []
    dateStyles := []
    date1904 := false }

/-- A parser that reports one sheet as it was written. -/
def reportSheet (columns : List ScriptString) (rows : List (SourceRow (Fin (2 ^ 53))))
    (_ : ScriptString) : List XmlEvent :=
  match sheetTokens columns rows with
  | .ok tokens => documentEvents tokens
  | .error _ => []

theorem reportSheet_reports {columns : List ScriptString}
    {rows : List (SourceRow (Fin (2 ^ 53)))} {tokens : List XmlToken}
    (h : sheetTokens columns rows = .ok tokens) :
    ReportsDocument (reportSheet columns rows) tokens := by
  rw [ReportsDocument, reportSheet, h]
  exact SplitsTexts.refl _

def sampleColumns : List ScriptString :=
  [scriptString "name", scriptString "paid"]

def sampleRows : List (SourceRow (Fin (2 ^ 53))) :=
  [[(scriptString "name", .string (scriptString "=a")), (scriptString "paid", .bool true)],
    [(scriptString "name", .string [])],
    [(scriptString "paid", .number 7)]]

theorem worksheet_round_trip_sample :
    exists xml, sheetXml sampleColumns sampleRows = .ok xml ∧
      readXlsxRecords sampleContext { headerRow := 1, convertValues := true }
          (reportSheet sampleColumns sampleRows xml) =
        .ok ((sampleRows.filter (hasCell sampleColumns)).map (recordOf sampleColumns true)) := by
  have hcolumns : ReadableColumns sampleColumns := by
    constructor
    · decide
    · decide
    · decide
    · decide +kernel
    · decide +kernel
  have hok : (sheetXml sampleColumns sampleRows).isOk = true := by decide +kernel
  rcases exists_of_isOk hok with ⟨xml, hxml⟩
  exists xml
  constructor
  · exact hxml
  · exact (worksheet_round_trip (reportSheet sampleColumns sampleRows) hxml
      (fun _ => reportSheet_reports) (fun _ hkind => absurd hkind List.not_mem_nil) hcolumns
      (by decide) (by decide) true).right

/-- A column with a lone surrogate is written and read with another name. -/
theorem lone_surrogate_column :
    exists (columns : List ScriptString) (rows : List (SourceRow (Fin (2 ^ 53)))),
      columns.Nodup ∧ (forall name, name ∈ columns -> trim name ≠ []) ∧
      (sheetXml columns rows).isOk = true ∧
      (forall tokens, sheetTokens columns rows = .ok tokens ->
        ReportsDocument (reportSheet columns rows) tokens) ∧
      (rows.map fun row => row.map Prod.fst) = [columns] ∧
      (readXlsxRecords sampleContext { headerRow := 1, convertValues := true }
          (reportSheet columns rows [])).map
          (fun records : List (SheetRecord (Fin (2 ^ 53))) =>
            records.map fun record => record.map Prod.fst) = .ok [[[0xFFFD]]] ∧
      columns ≠ [[0xFFFD]] := by
  exists [[0xD800]], [[([0xD800], .bool true)]]
  refine ⟨by decide, by decide, by decide +kernel, fun _ => reportSheet_reports, rfl, ?_, by decide⟩
  decide +kernel

end Spreadsheets
end Pertexo
