import Pertexo.Library.Paging
import Pertexo.Pages.Records

/-!
# Writing pages

## The artifact runtime

A runtime writes a body under a reference of its own and reads a body back. Its
store is the state that its calls see and change.
-/

namespace Pertexo
namespace Pages

open Library
open Values

def utf8Bytes (text : List Char) : ByteArray :=
  (String.ofList text).toByteArray

theorem size_utf8Bytes (text : List Char) : (utf8Bytes text).size = utf8ByteLength text := by
  rw [utf8Bytes, String.toByteArray_ofList]
  induction text with
  | nil => rfl
  | cons c rest ih =>
      rw [List.utf8Encode_cons, ByteArray.size_append, List.utf8Encode_singleton, ih,
        utf8ByteLength_cons]
      simp

structure ArtifactWrite where
  body : ByteArray
  maxBytes : Nat
  mediaType : String
  purpose : String

structure ArtifactRead where
  reference : NodeArtifactReference
  maxBytes : Nat

structure NodeArtifactRuntime (Store Failure : Type) where
  write : Store -> ArtifactWrite -> Except Failure (NodeArtifactReference × Store)
  read : Option (Store -> ArtifactRead -> Except Failure ByteArray)

section

variable {Store Failure : Type}

/-- What the runtime promises: a reference describes the body that was written,
and the body stays readable under it. -/
structure StoresArtifacts (isUuid : String -> Bool)
    (artifacts : NodeArtifactRuntime Store Failure)
    (read : Store -> ArtifactRead -> Except Failure ByteArray) : Prop where
  reader : artifacts.read = some read
  described : forall store request reference after,
    artifacts.write store request = .ok (reference, after) ->
    reference.byteLength = request.body.size ∧ reference.mediaType = request.mediaType ∧
      isUuid reference.artifactId = true ∧ isSha256 reference.sha256 = true
  readable : forall store request reference after,
    artifacts.write store request = .ok (reference, after) ->
    forall maxBytes, request.body.size ≤ maxBytes ->
      read after { reference, maxBytes } = .ok request.body
  kept : forall store request reference after,
    artifacts.write store request = .ok (reference, after) ->
    forall earlier body, read store earlier = .ok body -> read after earlier = .ok body

/-!
## The writer

The page under construction holds the texts of its records, with the bytes that
its text takes, brackets and separators included.
-/

inductive WriteFailure (Failure : Type) where
  | refused (reason : FilePagesReason)
  | storage (failure : Failure)

structure PageWriter (Store : Type) where
  store : Store
  pages : List FilePageReference
  pending : List (List Char)
  pendingBytes : Nat
  pendingMembers : Nat
  storedBytes : Nat
  itemCount : Nat

def PageWriter.bundle (writer : PageWriter Store) : FilePageBundle :=
  { pages := writer.pages
    itemCount := writer.itemCount
    pageCount := writer.pages.length }

def startPages (store : Store) : PageWriter Store :=
  { store
    pages := []
    pending := []
    pendingBytes := 2
    pendingMembers := 0
    storedBytes := 0
    itemCount := 0 }

def pageText (pending : List (List Char)) : List Char :=
  '[' :: commaJoin pending ++ [']']

def pageWrite (pending : List (List Char)) : ArtifactWrite :=
  let bytes := utf8Bytes (pageText pending)
  { body := bytes
    maxBytes := bytes.size
    mediaType := "application/json"
    purpose := "node-output" }

def flush (artifacts : NodeArtifactRuntime Store Failure) (writer : PageWriter Store) :
    Except (WriteFailure Failure) (PageWriter Store) :=
  if writer.pending.isEmpty then .ok writer
  else if writer.pages.length >= filePageLimits.pages then .error (.refused .pages)
  else if writer.storedBytes + writer.pendingBytes > filePageLimits.totalBytes then
    .error (.refused .bytes)
  else
    match artifacts.write writer.store (pageWrite writer.pending) with
    | .error failure => .error (.storage failure)
    | .ok (reference, store) =>
        let written : PageWriter Store :=
          { writer with
            store
            pages := writer.pages ++ [{ kind := "artifact", reference }]
            storedBytes := writer.storedBytes + writer.pendingBytes }
        if descriptorBytes written.bundle > storedInlineBytes then .error (.refused .descriptor)
        else .ok { written with pending := [], pendingBytes := 2, pendingMembers := 0 }

def separatorBytes (pending : List (List Char)) : Nat :=
  if pending.length > 0 then 1 else 0

def pageWouldOverflow (writer : PageWriter Store) (record : EncodedFilePageRecord) : Bool :=
  decide (writer.pending.length > 0) &&
    (decide (writer.pending.length >= filePageLimits.items) ||
      decide (writer.pendingBytes + record.bytes + separatorBytes writer.pending >
        filePageLimits.bytes) ||
      decide (writer.pendingMembers + record.members > filePageLimits.members))

def addRecord (writer : PageWriter Store) (record : EncodedFilePageRecord) :
    Except (WriteFailure Failure) (PageWriter Store) :=
  let addition := record.bytes + separatorBytes writer.pending
  if writer.storedBytes + writer.pendingBytes + addition > filePageLimits.totalBytes then
    .error (.refused .bytes)
  else
    .ok
      { writer with
        pending := writer.pending ++ [record.json]
        pendingBytes := writer.pendingBytes + addition
        pendingMembers := writer.pendingMembers + record.members
        itemCount := writer.itemCount + 1 }

def writeRecord (artifacts : NodeArtifactRuntime Store Failure) (writer : PageWriter Store)
    (record : EncodedFilePageRecord) : Except (WriteFailure Failure) (PageWriter Store) :=
  if writer.itemCount >= filePageLimits.totalItems then .error (.refused .items)
  else if pageWouldOverflow writer record then do
    let flushed ← flush artifacts writer
    addRecord flushed record
  else addRecord writer record

def writeFilePages (artifacts : Option (NodeArtifactRuntime Store Failure)) (store : Store)
    (records : List EncodedFilePageRecord) :
    Except (WriteFailure Failure) (FilePageBundle × Store) :=
  match artifacts with
  | none => .error (.refused .storage)
  | some artifacts => do
      let filled ← records.foldlM (writeRecord artifacts) (startPages store)
      let written ← flush artifacts filled
      return (written.bundle, written.store)

/-!
## The pages of a sequence of records

A sequence of records has its pages, whatever is done with them: each page takes
records in order until the next one would exceed a limit of the page.
-/

def pageJson (page : List EncodedFilePageRecord) : List (List Char) :=
  page.map EncodedFilePageRecord.json

def recordsBytes (page : List EncodedFilePageRecord) : Nat :=
  (page.map EncodedFilePageRecord.bytes).sum

def pageMembers (page : List EncodedFilePageRecord) : Nat :=
  (page.map EncodedFilePageRecord.members).sum

/-- Two brackets, the records, and a separator between each two of them. -/
def pageBytes (page : List EncodedFilePageRecord) : Nat :=
  2 + recordsBytes page + (page.length - 1)

def pageTakes (page : List EncodedFilePageRecord) (record : EncodedFilePageRecord) : Bool :=
  decide (page.length < filePageLimits.items) &&
    decide (pageBytes (page ++ [record]) ≤ filePageLimits.bytes) &&
    decide (pageMembers (page ++ [record]) ≤ filePageLimits.members)

def filePages (records : List EncodedFilePageRecord) : List (List EncodedFilePageRecord) :=
  fillPages pageTakes [] records

def totalPageBytes (pages : List (List EncodedFilePageRecord)) : Nat :=
  (pages.map pageBytes).sum

def storePage (artifacts : NodeArtifactRuntime Store Failure)
    (stored : List FilePageReference × Store) (page : List EncodedFilePageRecord) :
    Except Failure (List FilePageReference × Store) := do
  let (reference, store) ← artifacts.write stored.snd (pageWrite (pageJson page))
  return (stored.fst ++ [{ kind := "artifact", reference }], store)

/-- The references that the pages get when each is written in turn. -/
def storePages (artifacts : NodeArtifactRuntime Store Failure) (store : Store)
    (pages : List (List EncodedFilePageRecord)) :
    Except Failure (List FilePageReference × Store) :=
  pages.foldlM (storePage artifacts) ([], store)

/-!
## The writer follows the pages
-/

@[simp] theorem recordsBytes_append (left right : List EncodedFilePageRecord) :
    recordsBytes (left ++ right) = recordsBytes left + recordsBytes right := by
  simp [recordsBytes]

@[simp] theorem recordsBytes_singleton (record : EncodedFilePageRecord) :
    recordsBytes [record] = record.bytes := by
  simp [recordsBytes]

@[simp] theorem pageMembers_append (left right : List EncodedFilePageRecord) :
    pageMembers (left ++ right) = pageMembers left + pageMembers right := by
  simp [pageMembers]

@[simp] theorem pageMembers_singleton (record : EncodedFilePageRecord) :
    pageMembers [record] = record.members := by
  simp [pageMembers]

@[simp] theorem totalPageBytes_append (left right : List (List EncodedFilePageRecord)) :
    totalPageBytes (left ++ right) = totalPageBytes left + totalPageBytes right := by
  simp [totalPageBytes]

@[simp] theorem totalPageBytes_cons (page : List EncodedFilePageRecord)
    (rest : List (List EncodedFilePageRecord)) :
    totalPageBytes (page :: rest) = pageBytes page + totalPageBytes rest := by
  simp [totalPageBytes]

theorem pageBytes_le_append (page added : List EncodedFilePageRecord) :
    pageBytes page ≤ pageBytes (page ++ added) := by
  simp only [pageBytes, recordsBytes_append, List.length_append]
  omega

/-- Before the rest of the records: the pages written, the page under construction,
and the counters that describe them. -/
structure WriterAt (artifacts : NodeArtifactRuntime Store Failure) (store : Store)
    (records rest : List EncodedFilePageRecord) (written : List (List EncodedFilePageRecord))
    (page : List EncodedFilePageRecord) (writer : PageWriter Store) : Prop where
  continues : filePages records = written ++ fillPages pageTakes page rest
  stored : storePages artifacts store written = .ok (writer.pages, writer.store)
  pageCount : writer.pages.length = written.length
  pending : writer.pending = pageJson page
  pendingBytes : writer.pendingBytes = pageBytes page
  pendingMembers : writer.pendingMembers = pageMembers page
  storedBytes : writer.storedBytes = totalPageBytes written
  itemCount : writer.itemCount + rest.length = records.length
  pages : writer.pages.length ≤ filePageLimits.pages
  bytes : writer.storedBytes ≤ filePageLimits.totalBytes
  items : writer.itemCount ≤ filePageLimits.totalItems

theorem writerAt_startPages (artifacts : NodeArtifactRuntime Store Failure) (store : Store)
    (records : List EncodedFilePageRecord) :
    WriterAt artifacts store records records [] [] (startPages store) where
  continues := rfl
  stored := rfl
  pageCount := rfl
  pending := rfl
  pendingBytes := rfl
  pendingMembers := rfl
  storedBytes := rfl
  itemCount := Nat.zero_add _
  pages := Nat.zero_le _
  bytes := Nat.zero_le _
  items := Nat.zero_le _

variable {artifacts : NodeArtifactRuntime Store Failure} {store : Store}
  {records rest : List EncodedFilePageRecord} {written : List (List EncodedFilePageRecord)}
  {page : List EncodedFilePageRecord} {record : EncodedFilePageRecord}
  {writer : PageWriter Store}

theorem WriterAt.length_pending (h : WriterAt artifacts store records rest written page writer) :
    writer.pending.length = page.length := by
  rw [h.pending, pageJson, List.length_map]

theorem WriterAt.separatorBytes_pending
    (h : WriterAt artifacts store records rest written page writer) :
    separatorBytes writer.pending = if page.length > 0 then 1 else 0 := by
  rw [separatorBytes, h.length_pending]

theorem WriterAt.pageBytes_concat
    (h : WriterAt artifacts store records rest written page writer)
    (record : EncodedFilePageRecord) :
    pageBytes (page ++ [record]) =
      writer.pendingBytes + (record.bytes + separatorBytes writer.pending) := by
  rw [h.separatorBytes_pending, h.pendingBytes]
  simp only [pageBytes, recordsBytes_append, recordsBytes_singleton, List.length_append,
    List.length_singleton]
  split <;> omega

theorem WriterAt.pageTakes_eq (h : WriterAt artifacts store records rest written page writer)
    (hne : page ≠ []) (record : EncodedFilePageRecord) :
    pageTakes page record = !pageWouldOverflow writer record := by
  have hpos := List.length_pos_of_ne_nil hne
  rw [pageTakes, pageWouldOverflow, h.pageBytes_concat, h.length_pending, h.pendingMembers]
  simp only [pageMembers_append, pageMembers_singleton, hpos, decide_true, Bool.true_and,
    Bool.not_or, ← decide_not, Nat.not_lt, Nat.not_le, ge_iff_le, gt_iff_lt, Nat.add_assoc]

theorem WriterAt.ne_nil_of_overflow
    (h : WriterAt artifacts store records rest written page writer)
    (hoverflow : pageWouldOverflow writer record = true) : page ≠ [] := by
  intro hempty
  rw [pageWouldOverflow, h.length_pending, hempty] at hoverflow
  cases hoverflow

theorem WriterAt.takes_of_not_overflow
    (h : WriterAt artifacts store records rest written page writer)
    (hoverflow : ¬ pageWouldOverflow writer record = true) :
    page = [] ∨ pageTakes page record = true := by
  by_cases hempty : page = []
  · exact Or.inl hempty
  · right
    rw [h.pageTakes_eq hempty record]
    simpa using hoverflow

/-!
## One step of the writer
-/

theorem WriterAt.flush_of_nil (h : WriterAt artifacts store records rest written [] writer) :
    flush artifacts writer = .ok writer := by
  rw [flush, if_pos]
  rw [h.pending]
  rfl

/-- Writing the page under construction leaves an empty page, when no more records go to it. -/
theorem WriterAt.after_flush (h : WriterAt artifacts store records rest written page writer)
    (hnext : fillPages pageTakes page rest = page :: fillPages pageTakes [] rest)
    (hne : page ≠ []) {flushed : PageWriter Store}
    (hflush : flush artifacts writer = .ok flushed) :
    WriterAt artifacts store records rest (written ++ [page]) [] flushed := by
  rw [flush] at hflush
  split at hflush
  · next hempty =>
    rw [h.pending, pageJson, List.isEmpty_map] at hempty
    exact absurd (List.isEmpty_iff.mp hempty) hne
  split at hflush
  · cases hflush
  next hpages =>
  split at hflush
  · cases hflush
  next hbytes =>
  split at hflush
  · cases hflush
  · next reference after hwrite =>
    dsimp only at hflush
    split at hflush
    · cases hflush
    · cases hflush
      exact
        { continues := by rw [h.continues, hnext, List.append_assoc]; rfl
          stored := by
            have hstored := h.stored
            rw [h.pending] at hwrite
            rw [storePages] at hstored ⊢
            rw [List.foldlM_append, hstored]
            simp [storePage, hwrite, bind, Except.bind, pure, Except.pure]
          pageCount := by simp [h.pageCount]
          pending := rfl
          pendingBytes := rfl
          pendingMembers := rfl
          storedBytes := by simp [h.storedBytes, h.pendingBytes, totalPageBytes]
          itemCount := h.itemCount
          pages := by simp only [List.length_append, List.length_singleton]; omega
          bytes := by dsimp only; omega
          items := h.items }

theorem WriterAt.after_addRecord
    (h : WriterAt artifacts store records (record :: rest) written page writer)
    (htakes : page = [] ∨ pageTakes page record = true)
    (hitems : writer.itemCount < filePageLimits.totalItems) {added : PageWriter Store}
    (hadd : @addRecord Store Failure writer record = .ok added) :
    WriterAt artifacts store records rest written (page ++ [record]) added := by
  have hcontinues := h.continues
  have hcount := h.itemCount
  rw [addRecord] at hadd
  split at hadd
  · cases hadd
  · cases hadd
    exact
      { continues := by
          rw [hcontinues, fillPages, if_pos]
          cases htakes with
          | inl hempty => simp [hempty]
          | inr htaken => simp [htaken]
        stored := h.stored
        pageCount := h.pageCount
        pending := by simp [h.pending, pageJson]
        pendingBytes := (h.pageBytes_concat record).symm
        pendingMembers := by simp [h.pendingMembers]
        storedBytes := h.storedBytes
        itemCount := by simp only [List.length_cons] at hcount ⊢; omega
        pages := h.pages
        bytes := h.bytes
        items := hitems }

theorem WriterAt.fillPages_of_overflow
    (h : WriterAt artifacts store records (record :: rest) written page writer)
    (hoverflow : pageWouldOverflow writer record = true) :
    fillPages pageTakes page (record :: rest) =
      page :: fillPages pageTakes [] (record :: rest) := by
  have hne := h.ne_nil_of_overflow hoverflow
  have htakes := h.pageTakes_eq hne record
  rw [hoverflow] at htakes
  rw [fillPages, if_neg (by simp [hne, htakes])]
  rfl

theorem WriterAt.after_writeRecord
    (h : WriterAt artifacts store records (record :: rest) written page writer)
    {after : PageWriter Store} (hwrite : writeRecord artifacts writer record = .ok after) :
    exists written page, WriterAt artifacts store records rest written page after := by
  rw [writeRecord] at hwrite
  split at hwrite
  · cases hwrite
  next hitems =>
  split at hwrite
  · next hoverflow =>
    have hne := h.ne_nil_of_overflow hoverflow
    rcases exists_of_bind_eq_ok hwrite with ⟨flushed, hflush, hadd⟩
    have hflushed := h.after_flush (h.fillPages_of_overflow hoverflow) hne hflush
    have hsame := hflushed.itemCount
    have hcount := h.itemCount
    exact ⟨_, _, hflushed.after_addRecord (Or.inl rfl) (by omega) hadd⟩
  · next hoverflow =>
    exact ⟨_, _, h.after_addRecord (h.takes_of_not_overflow hoverflow) (by omega) hwrite⟩

theorem WriterAt.after_run (h : WriterAt artifacts store records rest written page writer)
    {after : PageWriter Store}
    (hrun : rest.foldlM (writeRecord artifacts) writer = .ok after) :
    exists written page, WriterAt artifacts store records [] written page after := by
  induction rest generalizing written page writer with
  | nil =>
      cases hrun
      exact ⟨written, page, h⟩
  | cons record rest ih =>
      rw [List.foldlM_cons] at hrun
      rcases exists_of_bind_eq_ok hrun with ⟨next, hnext, hrest⟩
      rcases h.after_writeRecord hnext with ⟨written, page, hat⟩
      exact ih hat hrest

end

end Pages
end Pertexo
