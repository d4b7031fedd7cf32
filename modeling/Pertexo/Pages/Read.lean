import Pertexo.Pages.Write

/-!
# Reading pages into a created file

A page is read, decoded and parsed, and must again be a list within the limits
of a page. Each of its records is checked as when it was encoded.
-/

namespace Pertexo
namespace Pages

open Library
open Values

/-- A decoder without options drops a byte order mark at the start of a text. -/
def decodeText (bytes : ByteArray) : Option (List Char) :=
  bytes.utf8Decode?.map fun decoded =>
    match decoded.toList with
    | '\uFEFF' :: rest => rest
    | text => text

inductive FileCreationCode where
  | data
  | size
  | columns
  | storage
deriving DecidableEq, Repr

inductive ReadFailure (Failure : Type) where
  | creation (code : FileCreationCode) (summary : String)
  | record (reason : FilePagesReason)
  | storage (failure : Failure)

def pageLimits : BoundedJsonLimits :=
  { bytes := filePageLimits.bytes
    depth := filePageLimits.depth
    members := filePageLimits.members }

structure PageReader (Number : Type) where
  bytes : Nat
  count : Nat
  yielded : List (BoundedJsonValue Number)

section

variable {Store Failure Number : Type} [ScriptNumber Number]

def parsePage (input : ByteArray) : Option (BoundedJsonValue Number) := do
  let text ← decodeText input
  let value ← parseJson text
  (canonicalizeBoundedJson value pageLimits).toOption

def readRecord (reader : PageReader Number) (record : BoundedJsonValue Number) :
    Except (ReadFailure Failure) (PageReader Number) :=
  if reader.count + 1 > filePageLimits.totalItems then
    .error (.creation .size
      "The pages exceed 100,000 records. Split the data into smaller files.")
  else
    match encodeFilePageRecord record.script with
    | .error reason => .error (.record reason)
    | .ok _ =>
        .ok
          { reader with
            count := reader.count + 1
            yielded := reader.yielded ++ [record] }

def readRecords (reader : PageReader Number) (value : BoundedJsonValue Number) :
    Except (ReadFailure Failure) (PageReader Number) :=
  let refused : Except (ReadFailure Failure) (PageReader Number) :=
    .error (.creation .data
      ("Each page must be a JSON list of at most 1,000 records. " ++
        "Read the source with Output pages again."))
  match value with
  | .array items =>
      if items.length > filePageLimits.items then refused else items.foldlM readRecord reader
  | _ => refused

def readPage (read : Store -> ArtifactRead -> Except Failure ByteArray) (store : Store)
    (reader : PageReader Number) (page : FilePageReference) :
    Except (ReadFailure Failure) (PageReader Number) :=
  let bytes := reader.bytes + page.reference.byteLength
  if bytes > filePageLimits.totalBytes then
    .error (.creation .size "The input pages exceed 10 MB. Split the data into smaller files.")
  else
    match read store { reference := page.reference, maxBytes := filePageLimits.bytes } with
    | .error failure => .error (.storage failure)
    | .ok input =>
        match parsePage input with
        | none =>
            .error (.creation .data
              ("A page is malformed or exceeds the 64 KB page limits. " ++
                "Read the source with Output pages again."))
        | some value => readRecords { reader with bytes } value

def records (artifacts : NodeArtifactRuntime Store Failure) (store : Store)
    (pages : List FilePageReference) :
    Except (ReadFailure Failure) (List (BoundedJsonValue Number)) :=
  match artifacts.read with
  | none =>
      .error (.creation .storage
        "File reading is unavailable. Ask the instance owner to configure it.")
  | some read =>
      (pages.foldlM (readPage read store) { bytes := 0, count := 0, yielded := [] }).map
        PageReader.yielded

/-!
## A page of encoded records
-/

/-- The snapshots of a page, beside the records that carry them. -/
abbrev PageOf (snapshots : List (BoundedJsonValue Number)) (page : List EncodedFilePageRecord) :
    Prop :=
  List.Forall₂ RecordOf snapshots page

theorem decodeText_utf8Bytes {text : List Char} (h : text.head? ≠ some '\uFEFF') :
    decodeText (utf8Bytes text) = some text := by
  rw [decodeText, utf8Bytes, String.toByteArray_ofList, List.utf8Decode?_utf8Encode]
  cases text with
  | nil => rfl
  | cons c rest =>
      have hc : c ≠ '\uFEFF' := by
        intro heq
        exact h (by rw [heq]; rfl)
      rw [Option.map_some]
      split
      · next hmark =>
        injection hmark with hfirst _
        exact absurd hfirst hc
      · rfl

variable {snapshots : List (BoundedJsonValue Number)} {page : List EncodedFilePageRecord}

theorem PageOf.json (h : PageOf snapshots page) : stringifyItems snapshots = pageJson page := by
  induction h with
  | nil => rfl
  | cons hrecord _ ih =>
      rw [stringifyItems, ih, ← hrecord.json]
      rfl

theorem PageOf.pageText (h : PageOf snapshots page) :
    pageText (pageJson page) = stringify (.array snapshots) := by
  rw [stringify, h.json]
  rfl

theorem PageOf.members (h : PageOf snapshots page) :
    (BoundedJsonValue.array snapshots).memberCount = pageMembers page := by
  induction h with
  | nil => rfl
  | @cons snapshot record snapshots page hrecord _ ih =>
      have hmembers := countRecordMembers_eq hrecord.counted
      have hsum : pageMembers (record :: page) = record.members + pageMembers page := by
        simp [pageMembers]
      simp only [BoundedJsonValue.memberCount, itemsCount, List.length_cons] at ih ⊢
      omega

theorem PageOf.depth (h : PageOf snapshots page) :
    (BoundedJsonValue.array snapshots).depth ≤ filePageLimits.depth := by
  have hitems : itemsDepth snapshots ≤ recordLimits.depth := by
    induction h with
    | nil => exact Nat.zero_le _
    | cons hrecord _ ih =>
        rw [itemsDepth]
        exact Nat.max_le.mpr ⟨hrecord.fits.depth, ih⟩
  exact Nat.succ_le_succ hitems

theorem PageOf.ordered (h : PageOf snapshots page) :
    (BoundedJsonValue.array snapshots).Ordered := by
  induction h with
  | nil => trivial
  | cons hrecord _ ih => exact ⟨hrecord.fits.ordered, ih⟩

theorem commaJoin_bytes (texts : List (List Char)) :
    utf8ByteLength (commaJoin texts) = (texts.map utf8ByteLength).sum + (texts.length - 1) := by
  induction texts with
  | nil => rfl
  | cons text rest ih =>
      cases rest with
      | nil => simp [commaJoin]
      | cons next others =>
          have hcomma : (',' : Char).utf8Size = 1 := by decide
          rw [commaJoin_cons (by simp), utf8ByteLength_append, utf8ByteLength_cons, ih, hcomma]
          simp only [List.map_cons, List.sum_cons, List.length_cons]
          omega

theorem PageOf.bytes (h : PageOf snapshots page) :
    utf8ByteLength (Pages.pageText (pageJson page)) = pageBytes page := by
  have hrecords : (pageJson page).map utf8ByteLength = page.map EncodedFilePageRecord.bytes := by
    rw [pageJson, List.map_map]
    induction h with
    | nil => rfl
    | cons hrecord _ ih =>
        rw [List.map_cons, List.map_cons, ih, hrecord.bytes]
        rfl
  have hopen : ('[' : Char).utf8Size = 1 := by decide
  have hclose : (']' : Char).utf8Size = 1 := by decide
  rw [Pages.pageText, List.cons_append, utf8ByteLength_cons, utf8ByteLength_append,
    utf8ByteLength_cons, utf8ByteLength_nil, commaJoin_bytes, hrecords, hopen, hclose, pageBytes,
    recordsBytes, pageJson, List.length_map]
  omega

theorem PageOf.parsePage (h : PageOf snapshots page)
    (hbytes : pageBytes page ≤ filePageLimits.bytes)
    (hmembers : pageMembers page ≤ filePageLimits.members) :
    parsePage (utf8Bytes (Pages.pageText (pageJson page))) = some (.array snapshots) := by
  have hfits : SnapshotFits pageLimits (.array snapshots) :=
    { ordered := h.ordered
      depth := h.depth
      members := by rw [h.members]; exact hmembers
      bytes := by rw [← h.pageText, h.bytes]; exact hbytes }
  have hcanonical : canonicalizeBoundedJson (BoundedJsonValue.array snapshots).script pageLimits =
      .ok (.array snapshots) :=
    (canonicalizeBoundedJson_eq_ok_iff (by decide)).mpr
      (inspectBoundedJson_script (by decide) hfits)
  have hhead : (Pages.pageText (pageJson page)).head? ≠ some '\uFEFF' := by
    rw [Pages.pageText, List.cons_append, List.head?_cons]
    decide
  rw [Pages.parsePage, decodeText_utf8Bytes hhead, h.pageText]
  change (parseJson (stringify (.array snapshots))).bind _ = _
  rw [parseJson_stringify h.ordered, Option.bind_some, hcanonical]
  rfl

/-!
## Reading written pages
-/

theorem PageOf.foldlM_readRecord (h : PageOf snapshots page) (reader : PageReader Number)
    (hcount : reader.count + snapshots.length ≤ filePageLimits.totalItems) :
    snapshots.foldlM (@readRecord Failure Number _) reader =
      .ok
        { reader with
          count := reader.count + snapshots.length
          yielded := reader.yielded ++ snapshots } := by
  induction h generalizing reader with
  | nil => simp [pure, Except.pure]
  | @cons snapshot record snapshots page hrecord _ ih =>
      simp only [List.length_cons] at hcount
      have hfirst : @readRecord Failure Number _ reader snapshot =
          .ok
            { reader with
              count := reader.count + 1
              yielded := reader.yielded ++ [snapshot] } := by
        rw [readRecord, if_neg (by omega), hrecord.encodeFilePageRecord]
      rw [List.foldlM_cons, hfirst]
      change List.foldlM _ _ _ = _
      rw [ih _ (by dsimp only; omega)]
      simp only [List.length_cons, List.append_assoc, List.singleton_append, Nat.add_assoc,
        Nat.add_comm 1]

end

end Pages
end Pertexo
