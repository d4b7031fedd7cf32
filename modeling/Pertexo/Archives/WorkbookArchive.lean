import Pertexo.Library.Keyed
import Pertexo.Library.Numerals
import Pertexo.Library.Results
import Pertexo.Spreadsheets.Columns
import Pertexo.Values.Utf8

/-!
# Archives of workbooks

## Checksums

The 32-bit cyclic redundancy check of a byte sequence, continued from that of the
bytes before it.
-/

namespace Pertexo
namespace Archives

open Library Values

def crcBit (value : UInt32) : UInt32 :=
  if value &&& 1 = 1 then (value >>> 1) ^^^ 0xEDB88320 else value >>> 1

def crcByte (value : UInt32) (byte : UInt8) : UInt32 :=
  Nat.iterate crcBit 8 (value ^^^ byte.toUInt32)

def crc32 (bytes : Bytes) (value : UInt32) : UInt32 :=
  ~~~ bytes.foldl crcByte (~~~ value)

def crcOfChunks (chunks : List Bytes) : UInt32 :=
  chunks.foldl (fun crc chunk => crc32 chunk crc) 0

theorem crc32_append (first second : Bytes) (value : UInt32) :
    crc32 (first ++ second) value = crc32 second (crc32 first value) := by
  simp [crc32]

theorem foldl_crc32 (chunks : List Bytes) (value : UInt32) :
    chunks.foldl (fun crc chunk => crc32 chunk crc) value = crc32 chunks.flatten value := by
  induction chunks generalizing value with
  | nil => simp [crc32]
  | cons chunk rest ih => rw [List.foldl_cons, ih, List.flatten_cons, crc32_append]

example : crc32 "123456789".toUTF8.toList 0 = 0xCBF43926 := by
  decide +kernel

/-!
## Compression

What the archives rely on: an inflated stream gives its chunks, and whether it ended
without an error.
-/

structure Inflated where
  chunks : List Bytes
  isComplete : Bool

structure Zlib where
  deflateRawSync : Bytes -> Bytes
  deflateRaw : List Bytes -> List Bytes
  inflateRaw : List Bytes -> Inflated

/-- Inflating undoes deflating, however the deflated bytes are sliced. -/
structure Zlib.Inverts (zlib : Zlib) : Prop where
  sync : forall (content : Bytes) (slices : List Bytes),
    slices.flatten = zlib.deflateRawSync content ->
    (zlib.inflateRaw slices).isComplete = true ∧
      (zlib.inflateRaw slices).chunks.flatten = content
  stream : forall (chunks slices : List Bytes),
    slices.flatten = (zlib.deflateRaw chunks).flatten ->
    (zlib.inflateRaw slices).isComplete = true ∧
      (zlib.inflateRaw slices).chunks.flatten = chunks.flatten

/-!
## Records
-/

inductive BufferFailure where
  | outOfRange
deriving DecidableEq, Repr

/-- Fields of a record as widths and values; a value that does not fit is refused. -/
def writeFields (fields : List (Nat × Nat)) : Except BufferFailure Bytes :=
  if fields.all fun field => decide (field.2 < 256 ^ field.1) then
    .ok (encodeFields fields)
  else .error .outOfRange

inductive ZipContent where
  | buffered (bytes : Bytes)
  | streamed (chunks : List Bytes)

def ZipContent.bytes : ZipContent -> Bytes
  | .buffered bytes => bytes
  | .streamed chunks => chunks.flatten

structure ZipPart where
  name : ScriptString
  content : ZipContent

structure Written where
  name : Bytes
  flags : Nat
  crc : Nat
  compressedSize : Nat
  size : Nat
  offset : Nat

/-- A streamed entry's sizes and CRC follow its data in a descriptor. -/
def DESCRIPTOR_FLAG : Nat :=
  0x08

def DOS_DATE : Nat :=
  0x21

def LOCAL_HEADER : Nat :=
  0x04034b50

def DIRECTORY_ENTRY : Nat :=
  0x02014b50

def END_OF_DIRECTORY : Nat :=
  0x06054b50

def localFields (entry : Written) : List (Nat × Nat) :=
  [(4, LOCAL_HEADER), (2, 20), (2, entry.flags), (2, 8), (2, 0), (2, DOS_DATE), (4, entry.crc),
    (4, entry.compressedSize), (4, entry.size), (2, entry.name.length), (2, 0)]

def localHeader (entry : Written) : Except BufferFailure Bytes := do
  let header ← writeFields (localFields entry)
  .ok (header ++ entry.name)

def directoryFields (entry : Written) : List (Nat × Nat) :=
  [(4, DIRECTORY_ENTRY), (2, 20), (2, 20), (2, entry.flags), (2, 8), (2, 0), (2, DOS_DATE),
    (4, entry.crc), (4, entry.compressedSize), (4, entry.size), (2, entry.name.length), (2, 0),
    (2, 0), (2, 0), (2, 0), (4, 0), (4, entry.offset)]

def directoryEntry (entry : Written) : Except BufferFailure Bytes := do
  let header ← writeFields (directoryFields entry)
  .ok (header ++ entry.name)

def endFields (count directorySize offset : Nat) : List (Nat × Nat) :=
  [(4, END_OF_DIRECTORY), (2, 0), (2, 0), (2, count), (2, count), (4, directorySize), (4, offset),
    (2, 0)]

/-!
## Parts
-/

structure WrittenPart where
  bytes : Bytes
  entry : Written
  next : Nat

def writePart (zlib : Zlib) (part : ZipPart) (offset : Nat) :
    Except BufferFailure WrittenPart :=
  let name := utf8Bytes part.name
  match part.content with
  | .buffered content => do
      let data := zlib.deflateRawSync content
      let entry :=
        { name
          flags := 0
          crc := (crc32 content 0).toNat
          compressedSize := data.length
          size := content.length
          offset }
      let header ← localHeader entry
      .ok { bytes := header ++ data, entry, next := offset + header.length + data.length }
  | .streamed chunks => do
      let header ← localHeader
        { name, flags := DESCRIPTOR_FLAG, crc := 0, compressedSize := 0, size := 0, offset }
      let data := zlib.deflateRaw chunks
      let entry :=
        { name
          flags := DESCRIPTOR_FLAG
          crc := (crcOfChunks chunks).toNat
          compressedSize := (data.map List.length).sum
          size := (chunks.map List.length).sum
          offset }
      let descriptor ← writeFields
        [(4, 0x08074b50), (4, entry.crc), (4, entry.compressedSize), (4, entry.size)]
      .ok
        { bytes := header ++ data.flatten ++ descriptor
          entry
          next := offset + header.length + entry.compressedSize + descriptor.length }

structure WrittenParts where
  bytes : Bytes
  written : List Written
  offset : Nat

def writeParts (zlib : Zlib) : List ZipPart -> Nat -> Except BufferFailure WrittenParts
  | [], offset => .ok { bytes := [], written := [], offset }
  | part :: rest, offset => do
      let first ← writePart zlib part offset
      let others ← writeParts zlib rest first.next
      .ok
        { bytes := first.bytes ++ others.bytes
          written := first.entry :: others.written
          offset := others.offset }

def writeDirectory : List Written -> Except BufferFailure Bytes
  | [] => .ok []
  | entry :: rest => do
      let first ← directoryEntry entry
      let others ← writeDirectory rest
      .ok (first ++ others)

def writeZip (zlib : Zlib) (parts : List ZipPart) : Except BufferFailure Bytes := do
  let body ← writeParts zlib parts 0
  let directory ← writeDirectory body.written
  let last ← writeFields (endFields body.written.length directory.length body.offset)
  .ok (body.bytes ++ directory ++ last)

/-!
## Reading fields
-/

open Spreadsheets (FileInputFailure)

inductive ArchiveFailure where
  | refused (failure : FileInputFailure)
  | outOfRange
deriving DecidableEq, Repr

def unsupported : ArchiveFailure :=
  .refused .unsupported_spreadsheet

def tooLarge : ArchiveFailure :=
  .refused .spreadsheet_too_large

def readUInt (view : Bytes) (offset width : Nat) : Except ArchiveFailure Nat :=
  match readField view offset width with
  | some value => .ok value
  | none => .error .outOfRange

def readUInt16LE (view : Bytes) (offset : Nat) : Except ArchiveFailure Nat :=
  readUInt view offset 2

def readUInt32LE (view : Bytes) (offset : Nat) : Except ArchiveFailure Nat :=
  readUInt view offset 4

def subarray (view : Bytes) (start stop : Nat) : Bytes :=
  (view.drop start).take (stop - start)

/-- Legacy .xls and password-protected .xlsx are both OLE compound files. -/
def COMPOUND_FILE : Bytes :=
  [0xd0, 0xcf, 0x11, 0xe0, 0xa1, 0xb1, 0x1a, 0xe1]

def SLICE : Nat :=
  65536

structure ArchiveLimits where
  entries : Nat
  uncompressedBytes : Nat

def archiveLimits : ArchiveLimits :=
  { entries := 1000
    uncompressedBytes := 104857600 }

structure ArchiveEntry where
  method : Nat
  crc : Nat
  compressedSize : Nat
  uncompressedSize : Nat
  dataOffset : Nat
deriving DecidableEq, Repr

abbrev ArchiveEntries := Keyed (ScriptString × ArchiveEntry) Prod.fst

structure WorkbookArchive where
  view : Bytes
  entries : ArchiveEntries

/-!
## The directory
-/

/-- An end record whose comment reaches to the end of the file. -/
def isEndRecord (view : Bytes) (offset : Nat) : Bool :=
  readField view offset 4 == some END_OF_DIRECTORY &&
    (readField view (offset + 20) 2).any fun comment => offset + 22 + comment == view.length

/-- The last end record, with at most the longest comment behind it. -/
def findEndOfDirectory (view : Bytes) : Except ArchiveFailure Nat :=
  if view.length < 22 then .error unsupported
  else
    let earliest := view.length - 22 - 0xffff
    match ((List.range' earliest (view.length - 22 + 1 - earliest)).reverse).find?
        (isEndRecord view) with
    | some offset => .ok offset
    | none => .error unsupported

def dataOffset (view : Bytes) (header compressedSize directoryStart : Nat) :
    Except ArchiveFailure Nat := do
  if directoryStart < header + 30 then .error unsupported
  else
    let signature ← readUInt32LE view header
    if signature ≠ LOCAL_HEADER then .error unsupported
    else
      let nameLength ← readUInt16LE view (header + 26)
      let extraLength ← readUInt16LE view (header + 28)
      let start := header + 30 + nameLength + extraLength
      if directoryStart < start + compressedSize then .error unsupported else .ok start

structure DirectoryRecord where
  flags : Nat
  method : Nat
  crc : Nat
  compressedSize : Nat
  uncompressedSize : Nat
  nameLength : Nat
  extraLength : Nat
  commentLength : Nat
  header : Nat

def readRecord (view : Bytes) (offset : Nat) : Except ArchiveFailure DirectoryRecord := do
  let flags ← readUInt16LE view (offset + 8)
  let method ← readUInt16LE view (offset + 10)
  let crc ← readUInt32LE view (offset + 16)
  let compressedSize ← readUInt32LE view (offset + 20)
  let uncompressedSize ← readUInt32LE view (offset + 24)
  let nameLength ← readUInt16LE view (offset + 28)
  let extraLength ← readUInt16LE view (offset + 30)
  let commentLength ← readUInt16LE view (offset + 32)
  let header ← readUInt32LE view (offset + 42)
  .ok
    { flags, method, crc, compressedSize, uncompressedSize, nameLength, extraLength,
      commentLength, header }

/-- Backslashes become slashes, and leading slashes are dropped. -/
def entryName (bytes : Bytes) : ScriptString :=
  ((readUtf8 bytes).map fun unit => if unit = 0x5C then 0x2F else unit).dropWhile
    fun unit => unit == 0x2F

structure DirectoryReader where
  offset : Nat
  declared : Nat
  entries : ArchiveEntries

/-- Bit 0 marks encryption; only stored and deflated entries are standard. -/
def readEntry (view : Bytes) (start : Nat) (reader : DirectoryReader) :
    Except ArchiveFailure DirectoryReader := do
  if view.length < reader.offset + 46 then .error unsupported
  else
    let signature ← readUInt32LE view reader.offset
    if signature ≠ DIRECTORY_ENTRY then .error unsupported
    else
      let record ← readRecord view reader.offset
      let next := reader.offset + 46 + record.nameLength + record.extraLength + record.commentLength
      let declared := reader.declared + record.uncompressedSize
      let name := entryName
        (subarray view (reader.offset + 46) (reader.offset + 46 + record.nameLength))
      if view.length < next then .error unsupported
      else if record.flags % 2 ≠ 0 ∨ (record.method ≠ 0 ∧ record.method ≠ 8) then
        .error unsupported
      else if archiveLimits.uncompressedBytes < declared then .error tooLarge
      else if reader.entries.has name = true then .error unsupported
      else
        let place ← dataOffset view record.header record.compressedSize start
        if record.method = 0 ∧ record.compressedSize ≠ record.uncompressedSize then
          .error unsupported
        else
          .ok
            { offset := next
              declared
              entries := reader.entries.set
                (name,
                  { method := record.method
                    crc := record.crc
                    compressedSize := record.compressedSize
                    uncompressedSize := record.uncompressedSize
                    dataOffset := place }) }

def readEntries (view : Bytes) (start : Nat) :
    Nat -> DirectoryReader -> Except ArchiveFailure DirectoryReader
  | 0, reader => .ok reader
  | count + 1, reader => do
      let next ← readEntry view start reader
      readEntries view start count next

def readDirectory (view : Bytes) (start count : Nat) : Except ArchiveFailure ArchiveEntries := do
  let reader ← readEntries view start count
    { offset := start, declared := 0, entries := Keyed.empty }
  .ok reader.entries

structure EndRecord where
  count : Nat
  directorySize : Nat
  directoryOffset : Nat
  disk : Nat
  directoryDisk : Nat
  diskCount : Nat

def readEndRecord (view : Bytes) (last : Nat) : Except ArchiveFailure EndRecord := do
  let count ← readUInt16LE view (last + 10)
  let directorySize ← readUInt32LE view (last + 12)
  let directoryOffset ← readUInt32LE view (last + 16)
  let disk ← readUInt16LE view (last + 4)
  let directoryDisk ← readUInt16LE view (last + 6)
  let diskCount ← readUInt16LE view (last + 8)
  .ok { count, directorySize, directoryOffset, disk, directoryDisk, diskCount }

/-- Zip64 marks its sizes with all-ones fields; a workbook this small never needs them. -/
def openArchive (view : Bytes) : Except ArchiveFailure WorkbookArchive := do
  if view.take COMPOUND_FILE.length = COMPOUND_FILE then .error unsupported
  else
    let last ← findEndOfDirectory view
    let record ← readEndRecord view last
    if ¬ (record.disk = 0 ∧ record.directoryDisk = 0 ∧ record.diskCount = record.count) ∨
        record.count = 0xffff ∨ record.directoryOffset = 0xffffffff then
      .error unsupported
    else if archiveLimits.entries < record.count then .error tooLarge
    else if last < record.directoryOffset + record.directorySize then .error unsupported
    else
      let entries ← readDirectory view record.directoryOffset record.count
      .ok { view, entries }

/-- Out-of-range reads mean the directory points outside the file. -/
def openWorkbookArchive (bytes : Bytes) : Except FileInputFailure WorkbookArchive :=
  match openArchive bytes with
  | .ok archive => .ok archive
  | .error (.refused failure) => .error failure
  | .error .outOfRange => .error .unsupported_spreadsheet

def WorkbookArchive.names (archive : WorkbookArchive) : List ScriptString :=
  archive.entries.items.map Prod.fst

/-!
## Reading entries
-/

def slices : Nat -> Bytes -> List Bytes
  | 0, _ => []
  | fuel + 1, data => if data = [] then [] else data.take SLICE :: slices fuel (data.drop SLICE)

structure InflateTally where
  produced : Nat
  checksum : UInt32

/-- A directory that understates an entry is how a zip bomb hides. -/
def tallyChunk (uncompressedSize : Nat) (tally : InflateTally) (chunk : Bytes) :
    Except FileInputFailure InflateTally :=
  if uncompressedSize < tally.produced + chunk.length then .error .spreadsheet_too_large
  else
    .ok
      { produced := tally.produced + chunk.length
        checksum := crc32 chunk tally.checksum }

def inflate (zlib : Zlib) (view : Bytes) (entry : ArchiveEntry) :
    Except FileInputFailure (List Bytes) := do
  let data := subarray view entry.dataOffset (entry.dataOffset + entry.compressedSize)
  let source := slices data.length data
  let output :=
    if entry.method = 0 then { chunks := source, isComplete := true } else zlib.inflateRaw source
  let tally ← output.chunks.foldlM (tallyChunk entry.uncompressedSize)
    { produced := 0, checksum := 0 }
  if output.isComplete = false then .error .unsupported_spreadsheet
  else if tally.produced ≠ entry.uncompressedSize ∨ tally.checksum.toNat ≠ entry.crc then
    .error .unsupported_spreadsheet
  else .ok output.chunks

def WorkbookArchive.read (zlib : Zlib) (archive : WorkbookArchive) (name : ScriptString) :
    Except FileInputFailure (List Bytes) :=
  match archive.entries.get? name with
  | some entry => inflate zlib archive.view entry.2
  | none => .error .unsupported_spreadsheet

/-!
## Opened archives are safe

Whatever the bytes are, an archive that opens has its entries within the bytes
before the directory, and the directory before the end record.
-/

def LiesBefore (start : Nat) (entries : ArchiveEntries) : Prop :=
  forall item, item ∈ entries -> item.2.dataOffset + item.2.compressedSize ≤ start

theorem le_of_dataOffset {view : Bytes} {header compressedSize start place : Nat}
    (h : dataOffset view header compressedSize start = .ok place) :
    place + compressedSize ≤ start := by
  rw [dataOffset] at h
  split at h
  · cases h
  · rcases exists_of_bind_eq_ok h with ⟨signature, _, h⟩
    split at h
    · cases h
    · rcases exists_of_bind_eq_ok h with ⟨nameLength, _, h⟩
      rcases exists_of_bind_eq_ok h with ⟨extraLength, _, h⟩
      dsimp only at h
      split at h
      · cases h
      · next hinside =>
        cases h
        exact Nat.le_of_not_lt hinside

theorem liesBefore_readEntry {view : Bytes} {start : Nat} {reader next : DirectoryReader}
    (h : readEntry view start reader = .ok next) (hbefore : LiesBefore start reader.entries) :
    LiesBefore start next.entries := by
  rw [readEntry] at h
  split at h
  · cases h
  · rcases exists_of_bind_eq_ok h with ⟨signature, _, h⟩
    split at h
    · cases h
    · rcases exists_of_bind_eq_ok h with ⟨record, _, h⟩
      dsimp only at h
      split at h
      · cases h
      · split at h
        · cases h
        · split at h
          · cases h
          · split at h
            · cases h
            · rcases exists_of_bind_eq_ok h with ⟨place, hplace, h⟩
              split at h
              · cases h
              · cases h
                intro item hitem
                rcases Keyed.mem_set.mp hitem with rfl | hold
                · exact le_of_dataOffset hplace
                · exact hbefore item hold.left

theorem liesBefore_readEntries {view : Bytes} {start count : Nat} {reader final : DirectoryReader}
    (h : readEntries view start count reader = .ok final)
    (hbefore : LiesBefore start reader.entries) : LiesBefore start final.entries := by
  induction count generalizing reader with
  | zero =>
      cases h
      exact hbefore
  | succ count ih =>
      rcases exists_of_bind_eq_ok h with ⟨next, hnext, hrest⟩
      exact ih hrest (liesBefore_readEntry hnext hbefore)

theorem lt_of_findEndOfDirectory {view : Bytes} {last : Nat}
    (h : findEndOfDirectory view = .ok last) : last + 22 ≤ view.length := by
  rw [findEndOfDirectory] at h
  split at h
  · cases h
  · dsimp only at h
    split at h
    · next hfound =>
      cases h
      have hmem := List.mem_of_find?_eq_some hfound
      rw [List.mem_reverse, List.mem_range'_1] at hmem
      omega
    · cases h

def DirectoryStartsAt (view : Bytes) (start : Nat) : Prop :=
  exists last record, findEndOfDirectory view = .ok last ∧ readEndRecord view last = .ok record ∧
    record.directoryOffset = start

theorem openArchive_inside {view : Bytes} {archive : WorkbookArchive}
    (h : openArchive view = .ok archive) :
    exists start, DirectoryStartsAt view start ∧ start ≤ view.length ∧ archive.view = view ∧
      LiesBefore start archive.entries := by
  rw [openArchive] at h
  split at h
  · cases h
  · rcases exists_of_bind_eq_ok h with ⟨last, hlast, h⟩
    rcases exists_of_bind_eq_ok h with ⟨record, hrecord, h⟩
    split at h
    · cases h
    · split at h
      · cases h
      · split at h
        · cases h
        · next hinside =>
          rcases exists_of_bind_eq_ok h with ⟨entries, hentries, h⟩
          rcases exists_of_bind_eq_ok hentries with ⟨reader, hreader, heq⟩
          cases h
          cases heq
          have hend := lt_of_findEndOfDirectory hlast
          refine ⟨record.directoryOffset, ⟨last, record, hlast, hrecord, rfl⟩, by omega, rfl, ?_⟩
          exact liesBefore_readEntries hreader
            fun item hitem => absurd hitem (Keyed.not_mem_empty item)

theorem openWorkbookArchive_inside {bytes : Bytes} {archive : WorkbookArchive}
    (h : openWorkbookArchive bytes = .ok archive) :
    exists start, DirectoryStartsAt bytes start ∧ start ≤ bytes.length ∧ archive.view = bytes ∧
      LiesBefore start archive.entries := by
  rw [openWorkbookArchive] at h
  split at h
  · next archive' hopen =>
    cases h
    exact openArchive_inside hopen
  · cases h
  · cases h

end Archives
end Pertexo
