import Mathlib.Data.List.TakeWhile
import Pertexo.Spreadsheets.Cells
import Pertexo.Spreadsheets.Columns
import Pertexo.Values.JsonText

/-!
# Worksheets as XML

## Limits
-/

namespace Pertexo
namespace Spreadsheets

open Library Values

structure WorkbookLimits where
  cells : Nat
  merges : Nat
  rows : Nat
  columns : Nat
  xmlDepth : Nat
  xmlAttributes : Nat

def workbookLimits : WorkbookLimits :=
  { cells := 1000000
    merges := 100000
    rows := 1048576
    columns := 16384
    xmlDepth := 64
    xmlAttributes := 128 }

/-!
## Names

Names lose their namespace prefix, as writers differ.
-/

abbrev XmlAttributes := List (String × ScriptString)

def localName (name : String) : String :=
  String.ofList (name.toList.reverse.takeWhile fun c => c != ':').reverse

def isNamespaceName (name : String) : Bool :=
  name == "xmlns" || "xmlns:".toList.isPrefixOf name.toList

def localAttributes (attributes : XmlAttributes) : XmlAttributes :=
  (attributes.filter fun field => ! isNamespaceName field.1).map fun field =>
    (localName field.1, field.2)

/-- Of attributes with one local name the last counts. -/
def readAttribute (attributes : XmlAttributes) (name : String) : Option ScriptString :=
  attributes.reverse.lookup name

/-!
## Visitors

A part is read from the events that the parser reports, within bounds on the
depth of elements and on the attributes of each.
-/

inductive XmlEvent where
  | opentag (name : String) (attributes : XmlAttributes)
  | text (content : ScriptString)
  | closetag (name : String)

structure XmlVisitor (σ : Type) where
  opened : σ -> String -> XmlAttributes -> Except FileInputFailure σ
  text : σ -> ScriptString -> Except FileInputFailure σ
  closed : σ -> String -> Except FileInputFailure σ

structure Visited (σ : Type) where
  depth : Nat
  state : σ

section

variable {σ : Type}

def visitEvent (visitor : XmlVisitor σ) (visited : Visited σ) :
    XmlEvent -> Except FileInputFailure (Visited σ)
  | .opentag name attributes =>
      if workbookLimits.xmlAttributes < attributes.length ∨
          workbookLimits.xmlDepth < visited.depth + 1 then
        .error .unsupported_spreadsheet
      else do
        let state ← visitor.opened visited.state (localName name) (localAttributes attributes)
        .ok { depth := visited.depth + 1, state }
  | .text content => do
      let state ← visitor.text visited.state content
      .ok { visited with state }
  | .closetag name => do
      let state ← visitor.closed visited.state (localName name)
      .ok { depth := visited.depth - 1, state }

def visitEvents (visitor : XmlVisitor σ) (visited : Visited σ) (events : List XmlEvent) :
    Except FileInputFailure (Visited σ) :=
  events.foldlM (visitEvent visitor) visited

/-- Reads a whole part for a visitor that keeps what it needs. -/
def readXml (visitor : XmlVisitor σ) (start : σ) (events : List XmlEvent) :
    Except FileInputFailure σ := do
  let visited ← visitEvents visitor { depth := 0, state := start } events
  .ok visited.state

theorem visitEvents_append {visitor : XmlVisitor σ} {start next finish : Visited σ}
    {first second : List XmlEvent} (hfirst : visitEvents visitor start first = .ok next)
    (hsecond : visitEvents visitor next second = .ok finish) :
    visitEvents visitor start (first ++ second) = .ok finish := by
  rw [visitEvents, List.foldlM_append]
  exact bind_eq_ok_iff.mpr ⟨next, hfirst, hsecond⟩

theorem visitEvents_cons {visitor : XmlVisitor σ} {start next finish : Visited σ}
    {event : XmlEvent} {events : List XmlEvent} (hevent : visitEvent visitor start event = .ok next)
    (hevents : visitEvents visitor next events = .ok finish) :
    visitEvents visitor start (event :: events) = .ok finish := by
  rw [visitEvents, List.foldlM_cons]
  exact bind_eq_ok_iff.mpr ⟨next, hevent, hevents⟩

end

/-!
## Markup

A sheet is written as a sequence of tags and texts. An empty tag closes itself.
-/

inductive XmlToken where
  | opening (name : String) (attributes : XmlAttributes) (isEmpty : Bool)
  | text (content : ScriptString)
  | closing (name : String)

def escapeXml (text : ScriptString) : ScriptString :=
  text.flatMap fun unit =>
    if unit = 0x26 then scriptString "&amp;"
    else if unit = 0x3C then scriptString "&lt;"
    else if unit = 0x3E then scriptString "&gt;"
    else if unit = 0x22 then scriptString "&quot;"
    else [unit]

def XmlToken.render : XmlToken -> ScriptString
  | .opening name attributes isEmpty =>
      scriptString "<" ++ scriptString name ++
        (attributes.flatMap fun field =>
          scriptString " " ++ scriptString field.1 ++ scriptString "=\"" ++ field.2 ++
            scriptString "\"") ++
        scriptString (if isEmpty then "/>" else ">")
  | .text content => escapeXml content
  | .closing name => scriptString "</" ++ scriptString name ++ scriptString ">"

def declaration : ScriptString :=
  scriptString "<?xml version=\"1.0\" encoding=\"UTF-8\" standalone=\"yes\"?>\r\n"

def renderDocument (tokens : List XmlToken) : ScriptString :=
  declaration ++ tokens.flatMap XmlToken.render

/-!
## Cells
-/

structure FileCreationFailure where
  code : String
  summary : String
deriving DecidableEq, Repr

def refuseLongCell (row : Nat) : FileCreationFailure :=
  { code := "file.create_data"
    summary := "Excel cells hold up to 32,767 characters; row " ++ toString row ++
      " has a longer value. Shorten it, or choose CSV or JSON." }

def isFormulaMark (unit : UInt16) : Bool :=
  [0x3D, 0x2B, 0x2D, 0x40].contains unit

def looksLikeFormula : ScriptString -> Bool
  | [] => false
  | unit :: rest =>
      isFormulaMark unit || [0x09, 0x0D, 0x0A].contains unit ||
        (isWhiteSpace unit && (rest.dropWhile isWhiteSpace).head?.any isFormulaMark)

structure SheetStyles where
  header : Nat
  quoted : Nat

/-- Header and quoted add up to the bold quoted style. -/
def SHEET_STYLES : SheetStyles :=
  { header := 1
    quoted := 2 }

def cellStyle (text : ScriptString) (header : Bool) : Nat :=
  (if header then SHEET_STYLES.header else 0) +
    (if looksLikeFormula text then SHEET_STYLES.quoted else 0)

def styleAttribute (style : Nat) : XmlAttributes :=
  if style = 0 then [] else [("s", decimal style)]

def inlineCell (reference text : ScriptString) (header : Bool) : List XmlToken :=
  [.opening "c"
      ([("r", reference), ("t", scriptString "inlineStr")] ++
        styleAttribute (cellStyle text header)) false,
    .opening "is" [] false,
    .opening "t" [("xml:space", scriptString "preserve")] false,
    .text (excelText text), .closing "t", .closing "is", .closing "c"]

def valueCell (attributes : XmlAttributes) (value : ScriptString) : List XmlToken :=
  [.opening "c" attributes false, .opening "v" [] false, .text value, .closing "v", .closing "c"]

def boundedCell (reference text : ScriptString) (row : Nat) :
    Except FileCreationFailure (List XmlToken) :=
  if spreadsheetLimits.cellTextLength < text.length then .error (refuseLongCell row)
  else .ok (inlineCell reference text false)

section

variable {Number : Type} [ScriptNumber Number]

def jsonText (value : BoundedJsonValue Number) : ScriptString :=
  (stringify value).flatMap charUnits

def cell (reference : ScriptString) (value : Option (BoundedJsonValue Number)) (row : Nat) :
    Except FileCreationFailure (List XmlToken) :=
  match value with
  | none => .ok []
  | some .null => .ok []
  | some (.number value) =>
      .ok (valueCell [("r", reference)] ((ScriptNumber.text value).flatMap charUnits))
  | some (.bool value) =>
      .ok (valueCell [("r", reference), ("t", scriptString "b")]
        (scriptString (if value then "1" else "0")))
  | some (.string text) => boundedCell reference text row
  | some (.array items) => boundedCell reference (jsonText (.array items)) row
  | some (.object members) => boundedCell reference (jsonText (.object members)) row

/-!
## Rows
-/

abbrev SourceRow (Number : Type) := List (ScriptString × BoundedJsonValue Number)

def rowTokens (index : Nat) (cells : List XmlToken) : List XmlToken :=
  .opening "row" [("r", decimal index)] false :: cells ++ [.closing "row"]

def reference (column row : Nat) : ScriptString :=
  columnLetters column ++ decimal row

def headerCells : List ScriptString -> Nat -> List XmlToken
  | [], _ => []
  | name :: rest, column =>
      inlineCell (reference column 1) name true ++ headerCells rest (column + 1)

def rowCells (row : SourceRow Number) (index : Nat) :
    List ScriptString -> Nat -> Except FileCreationFailure (List XmlToken)
  | [], _ => .ok []
  | name :: rest, column => do
      let first ← cell (reference column index) (row.lookup name) index
      let others ← rowCells row index rest (column + 1)
      .ok (first ++ others)

def dataRows (columns : List ScriptString) :
    List (SourceRow Number) -> Nat -> Except FileCreationFailure (List XmlToken)
  | [], _ => .ok []
  | row :: rest, index => do
      let cells ← rowCells row (index + 1) columns 0
      let others ← dataRows columns rest (index + 1)
      .ok (rowTokens (index + 1) cells ++ others)

def sheetHead : List XmlToken :=
  [.opening "worksheet"
      [("xmlns", scriptString "http://schemas.openxmlformats.org/spreadsheetml/2006/main")] false,
    .opening "sheetViews" [] false,
    .opening "sheetView" [("workbookViewId", scriptString "0")] false,
    .opening "pane"
      [("ySplit", scriptString "1"), ("topLeftCell", scriptString "A2"),
        ("activePane", scriptString "bottomLeft"), ("state", scriptString "frozen")] true,
    .opening "selection"
      [("pane", scriptString "bottomLeft"), ("activeCell", scriptString "A2"),
        ("sqref", scriptString "A2")] true,
    .closing "sheetView", .closing "sheetViews",
    .opening "sheetFormatPr" [("defaultRowHeight", scriptString "15")] true,
    .opening "sheetData" [] false]

def sheetFoot : List XmlToken :=
  [.closing "sheetData", .closing "worksheet"]

def sheetTokens (columns : List ScriptString) (rows : List (SourceRow Number)) :
    Except FileCreationFailure (List XmlToken) := do
  let written ← dataRows columns rows 1
  .ok (sheetHead ++ rowTokens 1 (headerCells columns 0) ++ written ++ sheetFoot)

/-- A bold header row frozen above typed cells, never formulas. -/
def sheetXml (columns : List ScriptString) (rows : List (SourceRow Number)) :
    Except FileCreationFailure ScriptString :=
  (sheetTokens columns rows).map renderDocument

end

/-!
## Reports

A parser reports each tag that was written, and each text in any number of pieces.
-/

def XmlToken.events : XmlToken -> List XmlEvent
  | .opening name attributes isEmpty =>
      .opentag name attributes :: if isEmpty then [.closetag name] else []
  | .text content => [.text content]
  | .closing name => [.closetag name]

inductive SplitsTexts : List XmlEvent -> List XmlEvent -> Prop where
  | nil : SplitsTexts [] []
  | opentag (name : String) (attributes : XmlAttributes) {events reported : List XmlEvent}
      (rest : SplitsTexts events reported) :
      SplitsTexts (.opentag name attributes :: events) (.opentag name attributes :: reported)
  | closetag (name : String) {events reported : List XmlEvent}
      (rest : SplitsTexts events reported) :
      SplitsTexts (.closetag name :: events) (.closetag name :: reported)
  | text (pieces : List ScriptString) {events reported : List XmlEvent}
      (rest : SplitsTexts events reported) :
      SplitsTexts (.text pieces.flatten :: events) (pieces.map XmlEvent.text ++ reported)

def documentEvents (tokens : List XmlToken) : List XmlEvent :=
  .text (scriptString "\r\n") :: tokens.flatMap XmlToken.events

/-- The parser reports what was written, and the line break after the declaration. -/
def ReportsDocument (parse : ScriptString -> List XmlEvent) (tokens : List XmlToken) : Prop :=
  SplitsTexts (documentEvents tokens) (parse (renderDocument tokens))

theorem SplitsTexts.refl (events : List XmlEvent) : SplitsTexts events events := by
  induction events with
  | nil => exact SplitsTexts.nil
  | cons event rest ih =>
      cases event with
      | opentag name attributes => exact SplitsTexts.opentag name attributes ih
      | closetag name => exact SplitsTexts.closetag name ih
      | text content =>
          have hone := SplitsTexts.text [content] ih
          rw [List.flatten_singleton] at hone
          exact hone

theorem SplitsTexts.append_inv {first second reported : List XmlEvent}
    (h : SplitsTexts (first ++ second) reported) :
    exists before after, reported = before ++ after ∧ SplitsTexts first before ∧
      SplitsTexts second after := by
  induction first generalizing reported with
  | nil => exact ⟨[], reported, rfl, SplitsTexts.nil, h⟩
  | cons event rest ih =>
      cases h with
      | opentag name attributes hrest =>
          rcases ih hrest with ⟨before, after, rfl, hbefore, hafter⟩
          exact ⟨_, after, rfl, SplitsTexts.opentag name attributes hbefore, hafter⟩
      | closetag name hrest =>
          rcases ih hrest with ⟨before, after, rfl, hbefore, hafter⟩
          exact ⟨_, after, rfl, SplitsTexts.closetag name hbefore, hafter⟩
      | text pieces hrest =>
          rcases ih hrest with ⟨before, after, rfl, hbefore, hafter⟩
          exact ⟨_, after, (List.append_assoc ..).symm, SplitsTexts.text pieces hbefore, hafter⟩

/-!
## Reading reports

A visitor reads events from one state to another when it does so for every report
of them.
-/

section

variable {σ : Type}

def Reads (visitor : XmlVisitor σ) (events : List XmlEvent) (start finish : Visited σ) : Prop :=
  forall reported, SplitsTexts events reported ->
    visitEvents visitor start reported = .ok finish

variable {visitor : XmlVisitor σ} {start next finish : Visited σ} {events : List XmlEvent}

theorem Reads.nil : Reads visitor [] start start := by
  intro reported hsplits
  cases hsplits
  rfl

theorem Reads.append {more : List XmlEvent} (hfirst : Reads visitor events start next)
    (hsecond : Reads visitor more next finish) : Reads visitor (events ++ more) start finish := by
  intro reported hsplits
  rcases hsplits.append_inv with ⟨before, after, rfl, hbefore, hafter⟩
  exact visitEvents_append (hfirst before hbefore) (hsecond after hafter)

theorem Reads.opentag {name : String} {attributes : XmlAttributes}
    (hevent : visitEvent visitor start (.opentag name attributes) = .ok next)
    (hrest : Reads visitor events next finish) :
    Reads visitor (.opentag name attributes :: events) start finish := by
  intro reported hsplits
  cases hsplits with
  | opentag _ _ hsplits => exact visitEvents_cons hevent (hrest _ hsplits)

theorem Reads.closetag {name : String}
    (hevent : visitEvent visitor start (.closetag name) = .ok next)
    (hrest : Reads visitor events next finish) :
    Reads visitor (.closetag name :: events) start finish := by
  intro reported hsplits
  cases hsplits with
  | closetag _ hsplits => exact visitEvents_cons hevent (hrest _ hsplits)

theorem Reads.text {content : ScriptString}
    (hpieces : forall pieces : List ScriptString, pieces.flatten = content -> exists next,
      visitEvents visitor start (pieces.map XmlEvent.text) = .ok next ∧
        Reads visitor events next finish) :
    Reads visitor (.text content :: events) start finish := by
  intro reported hsplits
  cases hsplits with
  | text pieces hsplits =>
      rcases hpieces pieces rfl with ⟨next, hnext, hrest⟩
      exact visitEvents_append hnext (hrest _ hsplits)

theorem readXml_of_reads {state final : σ} {depth : Nat} {reported : List XmlEvent}
    (h : Reads visitor events { depth := 0, state } { depth, state := final })
    (hsplits : SplitsTexts events reported) : readXml visitor state reported = .ok final := by
  rw [readXml, h reported hsplits]
  rfl

end

end Spreadsheets
end Pertexo
