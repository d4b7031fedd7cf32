import Pertexo.Archives.WorkbookArchive
import Pertexo.Spreadsheets.TextRoundTrip

/-!
# Archives read back

## Records
-/

namespace Pertexo
namespace Archives

open Library Values
open Spreadsheets (FileInputFailure toWellFormed)

theorem writeFields_eq_ok {fields : List (Nat × Nat)} {bytes : Bytes}
    (h : writeFields fields = .ok bytes) :
    bytes = encodeFields fields ∧ forall field, field ∈ fields -> field.2 < 256 ^ field.1 := by
  rw [writeFields] at h
  split at h
  · next hfits =>
    cases h
    refine ⟨rfl, ?_⟩
    intro field hfield
    exact of_decide_eq_true (List.all_eq_true.mp hfits field hfield)
  · cases h

structure StandsAt (view : Bytes) (offset : Nat) (fields : List (Nat × Nat)) (rest : Bytes) :
    Prop where
  fits : forall field, field ∈ fields -> field.2 < 256 ^ field.1
  place : exists front : Bytes, view = front ++ (encodeFields fields ++ rest) ∧
    front.length = offset

section

variable {view rest : Bytes} {offset : Nat} {fields : List (Nat × Nat)}

theorem StandsAt.readField (h : StandsAt view offset fields rest) {width n : Nat} (index : Nat)
    (hat : fields[index]? = some (width, n)) :
    readField view (offset + ((fields.take index).map Prod.fst).sum) width = some n := by
  rcases h.place with ⟨front, rfl, hfront⟩
  rw [readField_append hfront]
  exact readField_encodeFields h.fits hat rest

theorem StandsAt.readUInt (h : StandsAt view offset fields rest) {width n distance : Nat}
    (index : Nat) (hat : fields[index]? = some (width, n))
    (hdistance : ((fields.take index).map Prod.fst).sum = distance) :
    readUInt view (offset + distance) width = .ok n := by
  rw [Archives.readUInt, ← hdistance, h.readField index hat]

theorem StandsAt.drop (h : StandsAt view offset fields rest) :
    view.drop (offset + (fields.map Prod.fst).sum) = rest := by
  rcases h.place with ⟨front, rfl, hfront⟩
  rw [← hfront, ← length_encodeFields, ← List.length_append, ← List.append_assoc,
    List.drop_left]

theorem StandsAt.length (h : StandsAt view offset fields rest) :
    view.length = offset + (fields.map Prod.fst).sum + rest.length := by
  rcases h.place with ⟨front, rfl, hfront⟩
  rw [List.length_append, List.length_append, length_encodeFields, hfront, Nat.add_assoc]

theorem StandsAt.subarray (h : StandsAt view offset fields rest) {first second : Bytes}
    (hrest : rest = first ++ second) {start stop : Nat}
    (hstart : offset + (fields.map Prod.fst).sum = start) (hstop : start + first.length = stop) :
    subarray view start stop = first := by
  rw [Archives.subarray, ← hstart, h.drop, hstart, ← hstop, Nat.add_sub_cancel_left, hrest,
    List.take_left]

end

/-!
## Parts

How a part lies in its own bytes: a local header, the deflated data, and for a
streamed part a descriptor.
-/

structure PartLayout (zlib : Zlib) (part : ZipPart) (offset : Nat) (written : WrittenPart)
    (header : Written) (data after : Bytes) : Prop where
  fits : forall field, field ∈ localFields header -> field.2 < 256 ^ field.1
  bytes : written.bytes = encodeFields (localFields header) ++ (header.name ++ (data ++ after))
  headerName : header.name = utf8Bytes part.name
  name : written.entry.name = utf8Bytes part.name
  entryOffset : written.entry.offset = offset
  next : written.next = offset + written.bytes.length
  flags : written.entry.flags % 2 = 0
  compressedSize : written.entry.compressedSize = data.length
  size : written.entry.size = part.content.bytes.length
  crc : written.entry.crc = (crc32 part.content.bytes 0).toNat
  inflates : forall slices : List Bytes, slices.flatten = data ->
    (zlib.inflateRaw slices).isComplete = true ∧
      (zlib.inflateRaw slices).chunks.flatten = part.content.bytes

theorem exists_layout {zlib : Zlib} (hzlib : zlib.Inverts) {part : ZipPart} {offset : Nat}
    {written : WrittenPart} (h : writePart zlib part offset = .ok written) :
    exists header data after, PartLayout zlib part offset written header data after := by
  rcases part with ⟨name, content⟩
  cases content with
  | buffered content =>
      rcases exists_of_bind_eq_ok h with ⟨bytes, hheader, heq⟩
      rcases exists_of_bind_eq_ok hheader with ⟨fields, hfields, hbytes⟩
      cases heq
      cases hbytes
      rcases writeFields_eq_ok hfields with ⟨rfl, hfits⟩
      exact ⟨_, zlib.deflateRawSync content, [],
        { fits := hfits
          bytes := by simp
          headerName := rfl
          name := rfl
          entryOffset := rfl
          next := by simp [Nat.add_assoc]
          flags := rfl
          compressedSize := rfl
          size := rfl
          crc := rfl
          inflates := hzlib.sync content }⟩
  | streamed chunks =>
      rcases exists_of_bind_eq_ok h with ⟨bytes, hheader, hrest⟩
      rcases exists_of_bind_eq_ok hheader with ⟨fields, hfields, hbytes⟩
      rcases exists_of_bind_eq_ok hrest with ⟨descriptor, hdescriptor, heq⟩
      cases heq
      cases hbytes
      rcases writeFields_eq_ok hfields with ⟨rfl, hfits⟩
      exact ⟨_, (zlib.deflateRaw chunks).flatten, descriptor,
        { fits := hfits
          bytes := by simp
          headerName := rfl
          name := rfl
          entryOffset := rfl
          next := by simp [Nat.add_assoc, List.length_flatten]
          flags := show DESCRIPTOR_FLAG % 2 = 0 from rfl
          compressedSize := by rw [List.length_flatten]
          size := by rw [ZipContent.bytes, List.length_flatten]
          crc := by rw [ZipContent.bytes, crcOfChunks, foldl_crc32]
          inflates := hzlib.stream chunks }⟩

structure Stored (zlib : Zlib) (view : Bytes) (start : Nat) (part : ZipPart) (entry : Written) :
    Prop where
  layout : exists written header data after, PartLayout zlib part entry.offset written header data
    after ∧ written.entry = entry ∧ entry.offset + written.bytes.length ≤ start ∧
    exists front back : Bytes, view = front ++ (written.bytes ++ back) ∧
      front.length = entry.offset

theorem stored_of_writeParts {zlib : Zlib} (hzlib : zlib.Inverts) {parts : List ZipPart}
    {offset : Nat} {body : WrittenParts} (h : writeParts zlib parts offset = .ok body)
    {front : Bytes} (hfront : front.length = offset) (back : Bytes) :
    body.offset = offset + body.bytes.length ∧
      List.Forall₂ (Stored zlib (front ++ (body.bytes ++ back)) body.offset)
        parts body.written := by
  induction parts generalizing offset body front with
  | nil =>
      cases h
      exact ⟨rfl, List.Forall₂.nil⟩
  | cons part rest ih =>
      rcases exists_of_bind_eq_ok h with ⟨first, hfirst, hothers⟩
      rcases exists_of_bind_eq_ok hothers with ⟨others, hrest, heq⟩
      cases heq
      rcases exists_layout hzlib hfirst with ⟨header, data, after, hlayout⟩
      have hnext : (front ++ first.bytes).length = first.next := by
        rw [List.length_append, hfront, hlayout.next]
      rcases ih hrest hnext with ⟨hoffset, hstored⟩
      have hsum : others.offset = offset + (first.bytes ++ others.bytes).length := by
        rw [hoffset, hlayout.next, List.length_append, Nat.add_assoc]
      have hassoc : front ++ (first.bytes ++ others.bytes ++ back) =
          front ++ first.bytes ++ (others.bytes ++ back) := by
        simp
      refine ⟨hsum, List.Forall₂.cons ?_ (by rw [hassoc]; exact hstored)⟩
      constructor
      refine ⟨first, header, data, after, hlayout.entryOffset.symm ▸ hlayout, rfl, ?_, front,
        others.bytes ++ back, by simp, hfront.trans hlayout.entryOffset.symm⟩
      rw [hlayout.entryOffset]
      change offset + first.bytes.length ≤ others.offset
      rw [hsum, List.length_append]
      omega

/-!
## Reading a part
-/

theorem flatten_slices {fuel : Nat} {data : Bytes} (h : data.length ≤ fuel) :
    (slices fuel data).flatten = data := by
  induction fuel generalizing data with
  | zero =>
      rw [List.length_eq_zero_iff.mp (Nat.le_zero.mp h)]
      rfl
  | succ fuel ih =>
      rw [slices]
      split
      · next hempty =>
        rw [hempty]
        rfl
      · next hne =>
        have hpos := List.length_pos_iff.mpr hne
        have hshorter : (data.drop SLICE).length ≤ fuel := by
          rw [List.length_drop, SLICE]
          omega
        rw [List.flatten_cons, ih hshorter, List.take_append_drop]

theorem foldlM_tallyChunk {size : Nat} {chunks : List Bytes} {tally : InflateTally}
    (h : tally.produced + chunks.flatten.length ≤ size) :
    chunks.foldlM (tallyChunk size) tally =
      .ok
        { produced := tally.produced + chunks.flatten.length
          checksum := crc32 chunks.flatten tally.checksum } := by
  induction chunks generalizing tally with
  | nil =>
      rw [List.foldlM_nil, List.flatten_nil]
      simp [crc32, pure, Except.pure]
  | cons chunk rest ih =>
      rw [List.flatten_cons, List.length_append] at h
      rw [List.foldlM_cons, tallyChunk, if_neg (by omega)]
      change List.foldlM (tallyChunk size) _ rest = _
      rw [ih (by dsimp only; omega), List.flatten_cons, List.length_append, crc32_append,
        Nat.add_assoc]

def ReadsPart (zlib : Zlib) (view : Bytes) (part : ZipPart) (item : ScriptString × ArchiveEntry) :
    Prop :=
  item.1 = toWellFormed part.name ∧
    exists chunks, inflate zlib view item.2 = .ok chunks ∧ chunks.flatten = part.content.bytes

theorem exists_dataOffset {zlib : Zlib} {view : Bytes} {start : Nat} {part : ZipPart}
    {entry : Written} (h : Stored zlib view start part entry) :
    exists place chunks, dataOffset view entry.offset entry.compressedSize start = .ok place ∧
      inflate zlib view
          { method := 8, crc := entry.crc, compressedSize := entry.compressedSize,
            uncompressedSize := entry.size, dataOffset := place } = .ok chunks ∧
      chunks.flatten = part.content.bytes := by
  rcases h.layout with
    ⟨written, header, data, after, hlayout, hentry, hinside, front, back, hview, hfront⟩
  subst hentry
  have hstands : StandsAt view written.entry.offset (localFields header)
      (header.name ++ (data ++ (after ++ back))) := by
    refine ⟨hlayout.fits, front, ?_, hfront⟩
    rw [hview, hlayout.bytes]
    simp
  have hlength : written.bytes.length = 30 + header.name.length + data.length + after.length := by
    rw [hlayout.bytes, List.length_append, length_encodeFields, List.length_append,
      List.length_append]
    change 30 + _ = _
    omega
  have hsignature : readUInt32LE view written.entry.offset = .ok LOCAL_HEADER :=
    hstands.readUInt 0 rfl rfl
  have hname : readUInt16LE view (written.entry.offset + 26) = .ok header.name.length :=
    hstands.readUInt 9 rfl rfl
  have hextra : readUInt16LE view (written.entry.offset + 28) = .ok 0 := hstands.readUInt 10 rfl rfl
  have hplace : dataOffset view written.entry.offset written.entry.compressedSize start =
      .ok (written.entry.offset + 30 + header.name.length) := by
    rw [dataOffset, if_neg (by omega)]
    apply bind_eq_ok_iff.mpr ⟨_, hsignature, _⟩
    rw [if_neg (fun hne => hne rfl)]
    apply bind_eq_ok_iff.mpr ⟨_, hname, _⟩
    apply bind_eq_ok_iff.mpr ⟨_, hextra, _⟩
    dsimp only
    rw [if_neg]
    · rfl
    · have hcompressed := hlayout.compressedSize
      omega
  have hdata : subarray view (written.entry.offset + 30 + header.name.length)
      (written.entry.offset + 30 + header.name.length + written.entry.compressedSize) = data := by
    have hdrop := hstands.drop
    change view.drop (written.entry.offset + 30) = _ at hdrop
    rw [subarray, Nat.add_sub_cancel_left, ← List.drop_drop, hdrop, List.drop_left,
      hlayout.compressedSize, List.take_left]
  rcases hlayout.inflates _ (flatten_slices (le_refl data.length)) with ⟨hcomplete, hchunks⟩
  refine ⟨_, (zlib.inflateRaw (slices data.length data)).chunks, hplace, ?_, hchunks⟩
  have htally := @foldlM_tallyChunk written.entry.size
    (zlib.inflateRaw (slices data.length data)).chunks { produced := 0, checksum := 0 } (by
      rw [hchunks, hlayout.size, Nat.zero_add])
  rw [inflate, hdata]
  dsimp only
  rw [if_neg (by decide)]
  apply bind_eq_ok_iff.mpr ⟨_, htally, _⟩
  rw [hcomplete, if_neg Bool.noConfusion, if_neg]
  rw [hchunks, hlayout.size, hlayout.crc, Nat.zero_add, not_or, not_not, not_not]
  exact ⟨rfl, rfl⟩

/-!
## Names
-/

theorem forall₂_toWellFormed (text : ScriptString) :
    List.Forall₂ (fun source unit => unit = source ∨ unit = 0xFFFD) text (toWellFormed text) := by
  have hall : forall replaced : CodePoint -> ScriptString,
      (forall point : CodePoint,
        List.Forall₂ (fun source unit => unit = source ∨ unit = 0xFFFD) point.units
          (replaced point)) ->
      forall points : List CodePoint,
        List.Forall₂ (fun source unit => unit = source ∨ unit = 0xFFFD)
          (points.flatMap CodePoint.units) (points.flatMap replaced) := by
    intro replaced hreplaced points
    induction points with
    | nil => exact List.Forall₂.nil
    | cons point rest ih =>
        rw [List.flatMap_cons, List.flatMap_cons]
        exact List.rel_append (hreplaced point) ih
  rw [toWellFormed]
  nth_rewrite 1 [← units_codePoints text]
  apply hall
  intro point
  cases point with
  | char c => exact List.forall₂_same.mpr fun unit _ => Or.inl rfl
  | lone unit => exact List.Forall₂.cons (Or.inr rfl) List.Forall₂.nil

theorem entryName_utf8Bytes {name : ScriptString} (hbackslash : 0x5C ∉ name)
    (hslash : name.head? ≠ some 0x2F) : entryName (utf8Bytes name) = toWellFormed name := by
  have hread : readUtf8 (utf8Bytes name) = toWellFormed name := readUtf8_utf8Bytes name
  have hunits := forall₂_toWellFormed name
  have hmap : forall {source units : ScriptString},
      List.Forall₂ (fun source unit => unit = source ∨ unit = 0xFFFD) source units ->
      0x5C ∉ source -> (units.map fun unit => if unit = 0x5C then 0x2F else unit) = units := by
    intro source units h
    induction h with
    | nil => exact fun _ => rfl
    | cons hunit _ ih =>
        intro hnot
        rw [List.mem_cons, not_or] at hnot
        rw [List.map_cons, ih hnot.right, if_neg]
        rcases hunit with rfl | rfl
        · exact fun heq => hnot.left heq.symm
        · decide
  rw [entryName, hread, hmap hunits hbackslash]
  generalize toWellFormed name = units at hunits
  cases hunits with
  | nil => rfl
  | cons hunit _ =>
      rw [List.dropWhile_cons_of_neg]
      rw [beq_iff_eq]
      rcases hunit with rfl | rfl
      · exact fun heq => hslash (congrArg some heq)
      · decide

/-!
## Reading the directory
-/

theorem items_set_of_new {entries : ArchiveEntries} {item : ScriptString × ArchiveEntry}
    (h : ((entries.items ++ [item]).map Prod.fst).Nodup) :
    (entries.set item).items = entries.items ++ [item] :=
  @Keyed.foldl_set_items _ _ Prod.fst _ [item] entries h

theorem width_directoryFields (entry : Written) :
    ((directoryFields entry).map Prod.fst).sum = 46 := by
  simp [directoryFields]

theorem readRecord_eq {view rest : Bytes} {offset : Nat} {entry : Written}
    (h : StandsAt view offset (directoryFields entry) rest) :
    readRecord view offset =
      .ok
        { flags := entry.flags, method := 8, crc := entry.crc,
          compressedSize := entry.compressedSize, uncompressedSize := entry.size,
          nameLength := entry.name.length, extraLength := 0, commentLength := 0,
          header := entry.offset } := by
  have hflags : readUInt16LE view (offset + 8) = .ok entry.flags :=
    h.readUInt 3 rfl (by simp [directoryFields])
  have hmethod : readUInt16LE view (offset + 10) = .ok 8 :=
    h.readUInt 4 rfl (by simp [directoryFields])
  have hcrc : readUInt32LE view (offset + 16) = .ok entry.crc :=
    h.readUInt 7 rfl (by simp [directoryFields])
  have hcompressed : readUInt32LE view (offset + 20) = .ok entry.compressedSize :=
    h.readUInt 8 rfl (by simp [directoryFields])
  have hsize : readUInt32LE view (offset + 24) = .ok entry.size :=
    h.readUInt 9 rfl (by simp [directoryFields])
  have hname : readUInt16LE view (offset + 28) = .ok entry.name.length :=
    h.readUInt 10 rfl (by simp [directoryFields])
  have hextra : readUInt16LE view (offset + 30) = .ok 0 :=
    h.readUInt 11 rfl (by simp [directoryFields])
  have hcomment : readUInt16LE view (offset + 32) = .ok 0 :=
    h.readUInt 12 rfl (by simp [directoryFields])
  have hheader : readUInt32LE view (offset + 42) = .ok entry.offset :=
    h.readUInt 16 rfl (by simp [directoryFields])
  rw [readRecord, hflags, hmethod, hcrc, hcompressed, hsize, hname, hextra, hcomment, hheader]
  rfl

theorem readEntry_stored {zlib : Zlib} {view rest : Bytes} {start : Nat} {part : ZipPart}
    {entry : Written} {reader : DirectoryReader} (hstored : Stored zlib view start part entry)
    (hstands : StandsAt view reader.offset (directoryFields entry) (entry.name ++ rest))
    (hbackslash : 0x5C ∉ part.name) (hslash : part.name.head? ≠ some 0x2F)
    (hnew : reader.entries.has (toWellFormed part.name) = false)
    (hdeclared : reader.declared + part.content.bytes.length ≤ archiveLimits.uncompressedBytes) :
    exists item, ReadsPart zlib view part item ∧
      readEntry view start reader =
        .ok
          { offset := reader.offset + 46 + entry.name.length
            declared := reader.declared + part.content.bytes.length
            entries := reader.entries.set item } := by
  rcases exists_dataOffset hstored with ⟨place, chunks, hplace, hinflate, hchunks⟩
  rcases hstored.layout with ⟨written, header, data, after, hlayout, hentry, _, _⟩
  have hname : entry.name = utf8Bytes part.name := hentry ▸ hlayout.name
  have hsize : entry.size = part.content.bytes.length := hentry ▸ hlayout.size
  have hflags : entry.flags % 2 = 0 := hentry ▸ hlayout.flags
  have hlength := hstands.length
  rw [width_directoryFields, List.length_append] at hlength
  have hsignature : readUInt32LE view reader.offset = .ok DIRECTORY_ENTRY :=
    hstands.readUInt 0 rfl rfl
  have hbytes : subarray view (reader.offset + 46) (reader.offset + 46 + entry.name.length) =
      entry.name :=
    hstands.subarray rfl (by rw [width_directoryFields]) rfl
  have hdecoded : entryName entry.name = toWellFormed part.name := by
    rw [hname]
    exact entryName_utf8Bytes hbackslash hslash
  refine ⟨(toWellFormed part.name, _), ⟨rfl, chunks, hinflate, hchunks⟩, ?_⟩
  rw [readEntry, if_neg (by omega)]
  apply bind_eq_ok_iff.mpr ⟨_, hsignature, _⟩
  rw [if_neg (fun hne => hne rfl)]
  apply bind_eq_ok_iff.mpr ⟨_, readRecord_eq hstands, _⟩
  dsimp only
  rw [hbytes, hdecoded, if_neg (by omega), if_neg, if_neg, if_neg]
  · apply bind_eq_ok_iff.mpr ⟨_, hplace, _⟩
    rw [if_neg (fun hstoredEntry => absurd hstoredEntry.left (by decide)), hsize]
    rfl
  · rw [hnew]
    exact Bool.noConfusion
  · rw [hsize]
    exact Nat.not_lt.mpr hdeclared
  · rw [hflags]
    decide

theorem readEntries_stored {zlib : Zlib} {view : Bytes} {start : Nat} {parts : List ZipPart}
    {written : List Written} {directory front back : Bytes} {reader : DirectoryReader}
    (hstored : List.Forall₂ (Stored zlib view start) parts written)
    (hdirectory : writeDirectory written = .ok directory)
    (hview : view = front ++ (directory ++ back)) (hfront : front.length = reader.offset)
    (hbackslash : forall part, part ∈ parts -> 0x5C ∉ part.name)
    (hslash : forall part, part ∈ parts -> part.name.head? ≠ some 0x2F)
    (hunique : (reader.entries.items.map Prod.fst ++
      parts.map fun part => toWellFormed part.name).Nodup)
    (hdeclared : reader.declared + (parts.map fun part => part.content.bytes.length).sum ≤
      archiveLimits.uncompressedBytes) :
    exists final items, readEntries view start written.length reader = .ok final ∧
      final.entries.items = reader.entries.items ++ items ∧
      List.Forall₂ (ReadsPart zlib view) parts items := by
  induction hstored generalizing directory front reader with
  | nil => exact ⟨reader, [], rfl, (List.append_nil _).symm, List.Forall₂.nil⟩
  | @cons part entry parts written hfirst hrest ih =>
      rcases exists_of_bind_eq_ok hdirectory with ⟨record, hrecord, hothers⟩
      rcases exists_of_bind_eq_ok hothers with ⟨others, hmore, heq⟩
      rcases exists_of_bind_eq_ok hrecord with ⟨fields, hfields, hbytes⟩
      cases heq
      cases hbytes
      rcases writeFields_eq_ok hfields with ⟨rfl, hfits⟩
      rw [List.forall_mem_cons] at hbackslash hslash
      rw [List.map_cons, List.sum_cons] at hdeclared
      have hstands : StandsAt view reader.offset (directoryFields entry)
          (entry.name ++ (others ++ back)) := by
        refine ⟨hfits, front, ?_, hfront⟩
        rw [hview]
        simp
      have hnew : toWellFormed part.name ∉ reader.entries.items.map Prod.fst := by
        intro hmem
        rw [List.nodup_append] at hunique
        exact hunique.right.right _ hmem _ List.mem_cons_self rfl
      have hhas : reader.entries.has (toWellFormed part.name) = false := by
        rw [← Bool.not_eq_true, Keyed.has_iff]
        intro hold
        rcases hold with ⟨item, hitem, hkey⟩
        exact hnew (hkey ▸ List.mem_map_of_mem hitem)
      rcases readEntry_stored hfirst hstands hbackslash.left hslash.left hhas (by omega) with
        ⟨item, hreads, hnext⟩
      have hitems : (reader.entries.set item).items = reader.entries.items ++ [item] := by
        apply items_set_of_new
        rw [List.map_append, List.map_singleton, hreads.left]
        rw [List.map_cons, ← List.singleton_append, ← List.append_assoc] at hunique
        exact (List.nodup_append.mp hunique).left
      have hlength : (front ++ (encodeFields (directoryFields entry) ++ entry.name)).length =
          reader.offset + 46 + entry.name.length := by
        rw [List.length_append, List.length_append, length_encodeFields, width_directoryFields,
          hfront, ← Nat.add_assoc]
      rcases @ih others (front ++ (encodeFields (directoryFields entry) ++ entry.name))
        { offset := reader.offset + 46 + entry.name.length
          declared := reader.declared + part.content.bytes.length
          entries := reader.entries.set item } hmore (by rw [hview]; simp) hlength
        hbackslash.right hslash.right (by
          rw [hitems, List.map_append, List.map_singleton, hreads.left, List.append_assoc]
          exact hunique) (by dsimp only; omega) with ⟨final, items, hfinal, hfinalItems, hall⟩
      refine ⟨final, item :: items, bind_eq_ok_iff.mpr ⟨_, hnext, hfinal⟩, ?_,
        List.Forall₂.cons hreads hall⟩
      rw [hfinalItems, hitems, List.append_assoc]
      rfl

/-!
## Opening an archive
-/

theorem width_endFields (count size offset : Nat) :
    ((endFields count size offset).map Prod.fst).sum = 22 := by
  simp [endFields]

theorem findEndOfDirectory_of_stands {view : Bytes} {last count size offset : Nat}
    (h : StandsAt view last (endFields count size offset) []) :
    findEndOfDirectory view = .ok last := by
  have hlength := h.length
  rw [width_endFields, List.length_nil, Nat.add_zero] at hlength
  have hsignature : readField view last 4 = some END_OF_DIRECTORY := h.readField 0 rfl
  have hcomment : readField view (last + 20) 2 = some 0 := by
    have hread := h.readField 7 rfl
    simpa [endFields] using hread
  have hrecord : isEndRecord view last = true := by
    simp [isEndRecord, hsignature, hcomment, hlength]
  have hrange : List.range' (last - 0xffff) (last + 1 - (last - 0xffff)) =
      List.range' (last - 0xffff) (last - (last - 0xffff)) ++ [last] := by
    have hsucc : last + 1 - (last - 0xffff) = last - (last - 0xffff) + 1 := by omega
    have hsum : last - 0xffff + (last - (last - 0xffff)) = last := by omega
    rw [hsucc, List.range'_concat, Nat.one_mul, hsum]
  rw [findEndOfDirectory, if_neg (by omega)]
  have hlast : view.length - 22 = last := by omega
  rw [hlast]
  dsimp only
  rw [hrange, List.reverse_append, List.reverse_singleton, List.singleton_append,
    List.find?_cons_of_pos hrecord]

theorem readEndRecord_of_stands {view : Bytes} {last count size offset : Nat}
    (h : StandsAt view last (endFields count size offset) []) :
    readEndRecord view last =
      .ok
        { count, directorySize := size, directoryOffset := offset, disk := 0, directoryDisk := 0,
          diskCount := count } := by
  have hdisk : readUInt16LE view (last + 4) = .ok 0 := h.readUInt 1 rfl (by simp [endFields])
  have hdirectoryDisk : readUInt16LE view (last + 6) = .ok 0 :=
    h.readUInt 2 rfl (by simp [endFields])
  have hdiskCount : readUInt16LE view (last + 8) = .ok count :=
    h.readUInt 3 rfl (by simp [endFields])
  have hcount : readUInt16LE view (last + 10) = .ok count :=
    h.readUInt 4 rfl (by simp [endFields])
  have hsize : readUInt32LE view (last + 12) = .ok size := h.readUInt 5 rfl (by simp [endFields])
  have hoffset : readUInt32LE view (last + 16) = .ok offset :=
    h.readUInt 6 rfl (by simp [endFields])
  rw [readEndRecord, hcount, hsize, hoffset, hdisk, hdirectoryDisk, hdiskCount]
  rfl

theorem head_encodeFields {n : Nat} (hbyte : n % 256 = 0x50) (rest : List (Nat × Nat)) :
    (encodeFields ((4, n) :: rest)).head? = some 0x50 := by
  rw [encodeFields, List.flatMap_cons]
  change some (UInt8.ofNat (n % 256)) = _
  rw [hbyte]
  rfl

theorem head_writeZip {zlib : Zlib} (hzlib : zlib.Inverts) {parts : List ZipPart}
    {body : WrittenParts} {directory last : Bytes}
    (hbody : writeParts zlib parts 0 = .ok body) (hdirectory : writeDirectory body.written = .ok
      directory) {count size offset : Nat}
      (hlast : last = encodeFields (endFields count size offset)) :
    (body.bytes ++ (directory ++ last)).head? = some 0x50 := by
  cases parts with
  | nil =>
      cases hbody
      cases hdirectory
      rw [List.nil_append, List.nil_append, hlast]
      exact head_encodeFields (by decide) _
  | cons part rest =>
      rcases exists_of_bind_eq_ok hbody with ⟨first, hfirst, hothers⟩
      rcases exists_of_bind_eq_ok hothers with ⟨others, _, heq⟩
      cases heq
      rcases exists_layout hzlib hfirst with ⟨header, data, after, hlayout⟩
      have hhead : (encodeFields (localFields header)).head? = some 0x50 :=
        head_encodeFields (by decide) _
      rw [hlayout.bytes, List.append_assoc, List.append_assoc]
      rw [List.head?_append, hhead]
      rfl

/-- An archive that is written opens with the parts that were written, in order. -/
theorem exists_archive {zlib : Zlib} (hzlib : zlib.Inverts) {parts : List ZipPart} {bytes : Bytes}
    (hwritten : writeZip zlib parts = .ok bytes) (hsize : bytes.length < 2 ^ 32)
    (hcount : parts.length ≤ archiveLimits.entries)
    (hdeclared : (parts.map fun part => part.content.bytes.length).sum ≤
      archiveLimits.uncompressedBytes)
    (hbackslash : forall part, part ∈ parts -> 0x5C ∉ part.name)
    (hslash : forall part, part ∈ parts -> part.name.head? ≠ some 0x2F)
    (hunique : (parts.map fun part => toWellFormed part.name).Nodup) :
    exists archive, openWorkbookArchive bytes = .ok archive ∧ archive.view = bytes ∧
      List.Forall₂ (ReadsPart zlib bytes) parts archive.entries.items := by
  rcases exists_of_bind_eq_ok hwritten with ⟨body, hbody, hrest⟩
  rcases exists_of_bind_eq_ok hrest with ⟨directory, hdirectory, hrest⟩
  rcases exists_of_bind_eq_ok hrest with ⟨last, hlast, hbytes⟩
  cases hbytes
  rcases writeFields_eq_ok hlast with ⟨hrecord, hfits⟩
  rcases @stored_of_writeParts zlib hzlib parts 0 body hbody [] rfl (directory ++ last) with
    ⟨hoffset, hstored⟩
  rw [Nat.zero_add] at hoffset
  rw [List.nil_append] at hstored
  rw [List.append_assoc] at hsize ⊢
  have hlength : parts.length = body.written.length := hstored.length_eq
  have hlastLength : last.length = 22 := by
    rw [hrecord, length_encodeFields, width_endFields]
  have hstands : StandsAt (body.bytes ++ (directory ++ last)) (body.bytes ++ directory).length
      (endFields body.written.length directory.length body.offset) [] := by
    refine ⟨hfits, body.bytes ++ directory, ?_, rfl⟩
    rw [List.append_nil, ← hrecord, List.append_assoc]
  rcases @readEntries_stored zlib _ _ parts body.written directory body.bytes last
    { offset := body.offset, declared := 0, entries := Keyed.empty } hstored hdirectory rfl
    hoffset.symm hbackslash hslash hunique (by rw [Nat.zero_add]; exact hdeclared) with
    ⟨final, items, hfinal, hitems, hreads⟩
  have hentries :
      readDirectory (body.bytes ++ (directory ++ last)) body.offset body.written.length =
      .ok final.entries :=
    bind_eq_ok_iff.mpr ⟨final, hfinal, rfl⟩
  have hopen : openArchive (body.bytes ++ (directory ++ last)) =
      .ok { view := body.bytes ++ (directory ++ last), entries := final.entries } := by
    have hhead := head_writeZip hzlib hbody hdirectory hrecord
    rw [openArchive, if_neg]
    · apply bind_eq_ok_iff.mpr ⟨_, findEndOfDirectory_of_stands hstands, _⟩
      apply bind_eq_ok_iff.mpr ⟨_, readEndRecord_of_stands hstands, _⟩
      have hcountLimit : body.written.length ≤ archiveLimits.entries := hlength ▸ hcount
      have hlimit : archiveLimits.entries = 1000 := rfl
      rw [List.length_append, List.length_append, hlastLength] at hsize
      dsimp only
      rw [if_neg, if_neg (Nat.not_lt.mpr hcountLimit), if_neg]
      · exact bind_eq_ok_iff.mpr ⟨_, hentries, rfl⟩
      · rw [List.length_append, hoffset]
        exact Nat.lt_irrefl _
      · omega
    · intro hcompound
      cases hview : body.bytes ++ (directory ++ last) with
      | nil =>
          rw [hview] at hhead
          cases hhead
      | cons byte rest =>
          rw [hview] at hhead hcompound
          cases Option.some.inj hhead
          exact absurd (List.cons.inj hcompound).left (by decide)
  exists { view := body.bytes ++ (directory ++ last), entries := final.entries }
  refine ⟨?_, rfl, ?_⟩
  · rw [openWorkbookArchive, hopen]
  · dsimp only
    rw [hitems]
    exact hreads

/-!
## The round trip
-/

/-- What is written as an archive is read back, and no bytes open as an archive whose
entries lie outside the bytes before its directory. -/
theorem zip_round_trip {zlib : Zlib} (hzlib : zlib.Inverts) :
    (forall (parts : List ZipPart) (bytes : Bytes), writeZip zlib parts = .ok bytes ->
      bytes.length < 2 ^ 32 -> parts.length ≤ archiveLimits.entries ->
      (parts.map fun part => part.content.bytes.length).sum ≤ archiveLimits.uncompressedBytes ->
      (forall part, part ∈ parts -> 0x5C ∉ part.name ∧ part.name.head? ≠ some 0x2F) ->
      (parts.map fun part => toWellFormed part.name).Nodup ->
      exists archive, openWorkbookArchive bytes = .ok archive ∧
        archive.names = parts.map (fun part => toWellFormed part.name) ∧
        forall part, part ∈ parts -> exists chunks,
          archive.read zlib (toWellFormed part.name) = .ok chunks ∧
          chunks.flatten = part.content.bytes) ∧
    forall bytes : Bytes,
      (exists failure, openWorkbookArchive bytes = .error failure) ∨
        exists archive start, openWorkbookArchive bytes = .ok archive ∧
          DirectoryStartsAt bytes start ∧ start ≤ bytes.length ∧ archive.view = bytes ∧
          LiesBefore start archive.entries := by
  constructor
  · intro parts bytes hwritten hsize hcount hdeclared hnames hunique
    rcases exists_archive hzlib hwritten hsize hcount hdeclared
      (fun part hpart => (hnames part hpart).left) (fun part hpart => (hnames part hpart).right)
      hunique with ⟨archive, hopen, hview, hreads⟩
    refine ⟨archive, hopen, ?_, ?_⟩
    · rw [WorkbookArchive.names]
      generalize archive.entries.items = items at hreads
      clear * - hreads
      induction hreads with
      | nil => rfl
      | cons hfirst _ ih => rw [List.map_cons, List.map_cons, ih, hfirst.left]
    · intro part hpart
      rcases List.mem_iff_get.mp hpart with ⟨index, rfl⟩
      have hlt : index.val < archive.entries.items.length := hreads.length_eq ▸ index.isLt
      have hread := hreads.get index.isLt hlt
      rcases hread with ⟨hname, chunks, hinflate, hchunks⟩
      refine ⟨chunks, ?_, hchunks⟩
      have hget : archive.entries.get? (toWellFormed (parts.get index).name) =
          some (archive.entries.items.get ⟨index.val, hlt⟩) :=
        Keyed.get?_eq_some_iff.mpr ⟨List.get_mem _ _, hname⟩
      rw [WorkbookArchive.read, hget, hview]
      exact hinflate
  · intro bytes
    cases hopen : openWorkbookArchive bytes with
    | error failure => exact Or.inl ⟨failure, rfl⟩
    | ok archive =>
        rcases openWorkbookArchive_inside hopen with ⟨start, hstarts, hle, hview, hinside⟩
        exact Or.inr ⟨archive, start, rfl, hstarts, hle, hview, hinside⟩

/-!
A compressor for samples: it deflates nothing and the letter a as the real one does,
and marks any other content.
-/

def sampleDeflate (content : Bytes) : Bytes :=
  if content = [] then [0x03, 0x00]
  else if content = [0x61] then [0x4B, 0x04, 0x00]
  else 0x00 :: content

def sampleInflate (data : Bytes) : Bytes :=
  if data = [0x03, 0x00] then []
  else if data = [0x4B, 0x04, 0x00] then [0x61]
  else data.tail

theorem sampleInflate_sampleDeflate (content : Bytes) :
    sampleInflate (sampleDeflate content) = content := by
  rw [sampleDeflate]
  split
  · next hempty =>
    rw [hempty]
    rfl
  · split
    · next hletter =>
      rw [hletter]
      rfl
    · simp [sampleInflate]

def sampleZlib : Zlib :=
  { deflateRawSync := sampleDeflate
    deflateRaw := fun chunks => [sampleDeflate chunks.flatten]
    inflateRaw := fun slices => { chunks := [sampleInflate slices.flatten], isComplete := true } }

theorem sampleZlib_inverts : sampleZlib.Inverts := by
  constructor
  · intro content slices hslices
    refine ⟨rfl, ?_⟩
    change [sampleInflate slices.flatten].flatten = content
    rw [hslices, List.flatten_singleton]
    exact sampleInflate_sampleDeflate content
  · intro chunks slices hslices
    refine ⟨rfl, ?_⟩
    change [sampleInflate slices.flatten].flatten = chunks.flatten
    rw [hslices, List.flatten_singleton]
    exact (congrArg sampleInflate List.flatten_singleton).trans
      (sampleInflate_sampleDeflate chunks.flatten)

def sampleParts : List ZipPart :=
  [{ name := scriptString "xl/a.xml", content := .buffered [0x61] },
    { name := scriptString "b", content := .streamed [[], [0x61]] }]

theorem zip_round_trip_sample :
    exists bytes archive, writeZip sampleZlib sampleParts = .ok bytes ∧
      openWorkbookArchive bytes = .ok archive ∧
      archive.names = sampleParts.map fun part => toWellFormed part.name := by
  have hwritten : (writeZip sampleZlib sampleParts).isOk = true ∧
      ((writeZip sampleZlib sampleParts).toOption.map List.length) = some 214 := by
    decide +kernel
  rcases exists_of_isOk hwritten.left with ⟨bytes, hbytes⟩
  have hlength := hwritten.right
  rw [hbytes] at hlength
  have hsize : bytes.length < 2 ^ 32 := by
    rw [Option.some.inj hlength]
    decide
  rcases (zip_round_trip sampleZlib_inverts).left sampleParts bytes hbytes hsize (by decide)
    (by decide) (by decide) (by decide) with ⟨archive, hopen, hnames, _⟩
  exact ⟨bytes, archive, hbytes, hopen, hnames⟩

/-- A name with a lone surrogate is written and read as another one. -/
theorem lone_surrogate_name :
    exists parts bytes, writeZip sampleZlib parts = .ok bytes ∧
      parts.map ZipPart.name = [[0xD800]] ∧
      (openWorkbookArchive bytes).map WorkbookArchive.names = .ok [[0xFFFD]] ∧
      parts.map ZipPart.name ≠ [[0xFFFD]] := by
  have hwritten :
      ((writeZip sampleZlib [{ name := [0xD800], content := .buffered [0x61] }]).toOption.map
      fun bytes => (openWorkbookArchive bytes).map WorkbookArchive.names) =
        some (.ok [[0xFFFD]]) := by
    decide +kernel
  cases hbytes : writeZip sampleZlib [{ name := [0xD800], content := .buffered [0x61] }] with
  | error failure =>
      rw [hbytes] at hwritten
      cases hwritten
  | ok bytes =>
      rw [hbytes] at hwritten
      exact ⟨_, bytes, hbytes, rfl, Option.some.inj hwritten, by decide⟩

end Archives
end Pertexo
