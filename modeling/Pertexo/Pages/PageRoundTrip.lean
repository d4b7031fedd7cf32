import Pertexo.Pages.Read
import Pertexo.Pages.Refusals

/-!
# Written pages are readable pages

## Splitting snapshots into pages
-/

namespace Pertexo
namespace Pages

open Library
open Values

theorem exists_forall₂_flatten {R : α -> β -> Prop} {pages : List (List β)} {items : List α}
    (h : List.Forall₂ R items pages.flatten) :
    exists parts, parts.flatten = items ∧ List.Forall₂ (List.Forall₂ R) parts pages := by
  induction pages generalizing items with
  | nil =>
      cases h
      exact ⟨[], rfl, List.Forall₂.nil⟩
  | cons page rest ih =>
      rw [List.flatten_cons] at h
      have hfirst := List.forall₂_take_append items page rest.flatten h
      have hlater := List.forall₂_drop_append items page rest.flatten h
      rcases ih hlater with ⟨parts, hparts, hrest⟩
      exists items.take page.length :: parts
      constructor
      · rw [List.flatten_cons, hparts, List.take_append_drop]
      · exact List.Forall₂.cons hfirst hrest

structure FitsPage (page : List EncodedFilePageRecord) : Prop where
  items : page.length ≤ filePageLimits.items
  bytes : pageBytes page ≤ filePageLimits.bytes
  members : pageMembers page ≤ filePageLimits.members

theorem fitsPage_of_pageTakes {page : List EncodedFilePageRecord} {record : EncodedFilePageRecord}
    (h : pageTakes page record = true) : FitsPage (page ++ [record]) := by
  simp only [pageTakes, Bool.and_eq_true, decide_eq_true_eq] at h
  exact
    { items := by
        rw [List.length_append, List.length_singleton]
        exact h.left.left
      bytes := h.left.right
      members := h.right }

section

variable {Store Failure Number : Type} [ScriptNumber Number]

theorem RecordOf.fitsPage {snapshot : BoundedJsonValue Number} {record : EncodedFilePageRecord}
    (h : RecordOf snapshot record) : FitsPage [record] := by
  have hbytes : record.bytes ≤ filePageLimits.bytes - 2 := by
    rw [h.bytes, h.json]
    exact h.fits.bytes
  have hmembers : snapshot.memberCount ≤ filePageLimits.members - 1 := h.fits.members
  have hcounted := countRecordMembers_eq h.counted
  have hbound : filePageLimits.bytes = 65536 ∧ filePageLimits.members = 4000 := ⟨rfl, rfl⟩
  exact
    { items := by
        rw [List.length_singleton]
        decide
      bytes := by
        simp only [pageBytes, recordsBytes_singleton, List.length_singleton]
        omega
      members := by
        rw [pageMembers_singleton]
        omega }

theorem fitsPage_of_mem_filePages {snapshots : List (BoundedJsonValue Number)}
    {records : List EncodedFilePageRecord} (h : List.Forall₂ RecordOf snapshots records)
    (page : List EncodedFilePageRecord) (hpage : page ∈ filePages records) :
    page ≠ [] ∧ FitsPage page := by
  apply fillPages_invariant (P := FitsPage) (fun hne => absurd rfl hne) _ _ page hpage
  · intro record hrecord
    rcases List.forall₂_iff_get.mp h with ⟨hlength, hall⟩
    rcases List.get_of_mem hrecord with ⟨index, hindex⟩
    have hof := hall index.val (by omega) index.isLt
    rw [List.get_eq_getElem] at hindex
    simp only [List.get_eq_getElem, hindex] at hof
    exact hof.fitsPage
  · intro filled record _ _ htakes
    exact fitsPage_of_pageTakes htakes

/-!
## Pages in the store
-/

variable {isUuid : String -> Bool} {artifacts : NodeArtifactRuntime Store Failure}
  {read : Store -> ArtifactRead -> Except Failure ByteArray}

structure StoredPage (isUuid : String -> Bool)
    (read : Store -> ArtifactRead -> Except Failure ByteArray) (after : Store)
    (page : List EncodedFilePageRecord) (stored : FilePageReference) : Prop where
  kind : stored.kind = "artifact"
  byteLength : stored.reference.byteLength = (utf8Bytes (pageText (pageJson page))).size
  mediaType : stored.reference.mediaType = "application/json"
  artifactId : isUuid stored.reference.artifactId = true
  sha256 : isSha256 stored.reference.sha256 = true
  content : forall maxBytes, stored.reference.byteLength ≤ maxBytes ->
    read after { reference := stored.reference, maxBytes } =
      .ok (utf8Bytes (pageText (pageJson page)))

theorem foldlM_storePage_spec (hstores : StoresArtifacts isUuid artifacts read)
    {pages : List (List EncodedFilePageRecord)} {before : List FilePageReference} {store : Store}
    {result : List FilePageReference × Store}
    (h : pages.foldlM (storePage artifacts) (before, store) = .ok result) :
    exists added, result.fst = before ++ added ∧
      List.Forall₂ (StoredPage isUuid read result.snd) pages added ∧
      forall earlier body, read store earlier = .ok body -> read result.snd earlier = .ok body := by
  induction pages generalizing before store with
  | nil =>
      cases h
      exact ⟨[], by simp, List.Forall₂.nil, fun _ _ hread => hread⟩
  | cons page rest ih =>
      rw [List.foldlM_cons] at h
      rcases exists_of_bind_eq_ok h with ⟨next, hnext, hrest⟩
      rw [storePage] at hnext
      rcases exists_of_bind_eq_ok hnext with ⟨⟨reference, after⟩, hwrite, hstored⟩
      cases pure_eq_ok_iff.mp hstored
      rcases ih hrest with ⟨added, hadded, hpages, hkept⟩
      rcases hstores.described _ _ _ _ hwrite with ⟨hlength, hmedia, huuid, hsha⟩
      exists { kind := "artifact", reference } :: added
      refine ⟨by rw [hadded, List.append_assoc]; rfl, List.Forall₂.cons ?_ hpages, ?_⟩
      · exact
          { kind := rfl
            byteLength := hlength
            mediaType := hmedia
            artifactId := huuid
            sha256 := hsha
            content := by
              intro maxBytes hmax
              rw [hlength] at hmax
              exact hkept _ _ (hstores.readable _ _ _ _ hwrite maxBytes hmax) }
      · intro earlier body hread
        exact hkept _ _ (hstores.kept _ _ _ _ hwrite _ _ hread)

theorem StoredPage.filePageReferenceSchema {after : Store} {page : List EncodedFilePageRecord}
    {stored : FilePageReference} (h : StoredPage isUuid read after page stored)
    {snapshots : List (BoundedJsonValue Number)} (hpage : PageOf snapshots page)
    (hfits : FitsPage page) : filePageReferenceSchema isUuid stored = true := by
  have hlength : stored.reference.byteLength = pageBytes page := by
    rw [h.byteLength, size_utf8Bytes, hpage.bytes]
  have hmedia : isMediaType "application/json" = true := by decide
  have hbytes := hfits.bytes
  have hbound : filePageLimits.bytes = 65536 := rfl
  have htwo : 2 ≤ pageBytes page := by
    rw [pageBytes]
    omega
  simp only [Pages.filePageReferenceSchema, nodeArtifactReferenceSchema, h.artifactId,
    h.mediaType, h.sha256, h.kind, hlength, hmedia, Bool.and_eq_true, decide_eq_true_eq,
    beq_self_eq_true, true_and, and_true]
  omega

/-!
## Reading the pages of a bundle
-/

theorem foldlM_readPage_spec {after : Store} {parts : List (List (BoundedJsonValue Number))}
    {pages : List (List EncodedFilePageRecord)} {stored : List FilePageReference}
    (hparts : List.Forall₂ PageOf parts pages)
    (hstored : List.Forall₂ (StoredPage isUuid read after) pages stored)
    (hfits : forall page, page ∈ pages -> FitsPage page) (reader : PageReader Number)
    (hbytes : reader.bytes + totalPageBytes pages ≤ filePageLimits.totalBytes)
    (hcount : reader.count + parts.flatten.length ≤ filePageLimits.totalItems) :
    stored.foldlM (readPage read after) reader =
      .ok
        { bytes := reader.bytes + totalPageBytes pages
          count := reader.count + parts.flatten.length
          yielded := reader.yielded ++ parts.flatten } := by
  induction hparts generalizing stored reader with
  | nil =>
      cases hstored
      simp [totalPageBytes, pure, Except.pure]
  | @cons part page parts pages hpage _ ih =>
      cases hstored with
      | @cons _ reference _ others hfirst hothers =>
          have hpageFits := hfits page (List.mem_cons_self ..)
          have hlength : reference.reference.byteLength = pageBytes page := by
            rw [hfirst.byteLength, size_utf8Bytes, hpage.bytes]
          have hitems : part.length ≤ filePageLimits.items := by
            rw [hpage.length_eq]
            exact hpageFits.items
          simp only [totalPageBytes_cons, List.flatten_cons, List.length_append] at hbytes hcount
          have hcontent := hfirst.content filePageLimits.bytes
            (by rw [hlength]; exact hpageFits.bytes)
          have hread : readPage read after reader reference =
              .ok
                { bytes := reader.bytes + pageBytes page
                  count := reader.count + part.length
                  yielded := reader.yielded ++ part } := by
            rw [readPage]
            rw [hlength, if_neg (by omega), hcontent]
            dsimp only
            rw [hpage.parsePage hpageFits.bytes hpageFits.members]
            dsimp only
            rw [readRecords, if_neg (by omega), hpage.foldlM_readRecord _ (by dsimp only; omega)]
          rw [List.foldlM_cons, hread]
          change List.foldlM _ _ _ = _
          rw [ih hothers (fun other hother => hfits other (List.mem_cons_of_mem _ hother)) _
            (by dsimp only; omega) (by dsimp only; omega)]
          simp only [totalPageBytes_cons, List.flatten_cons, List.length_append,
            List.append_assoc, Nat.add_assoc]

/-!
## The pages of a written bundle
-/

structure WrittenPage (read : Store -> ArtifactRead -> Except Failure ByteArray) (after : Store)
    (snapshots : List (BoundedJsonValue Number)) (page : FilePageReference) : Prop where
  nonempty : snapshots ≠ []
  items : snapshots.length ≤ filePageLimits.items
  bytes : utf8ByteLength (stringify (.array snapshots)) ≤ filePageLimits.bytes
  members : (BoundedJsonValue.array snapshots).memberCount ≤ filePageLimits.members
  depth : (BoundedJsonValue.array snapshots).depth ≤ filePageLimits.depth
  byteLength : page.reference.byteLength = utf8ByteLength (stringify (.array snapshots))
  content : forall maxBytes, page.reference.byteLength ≤ maxBytes ->
    read after { reference := page.reference, maxBytes } =
      .ok (utf8Bytes (stringify (.array snapshots)))
  parsed : parseJson (stringify (.array snapshots)) =
    some (BoundedJsonValue.array snapshots).script

/-- A bundle whose pages hold the snapshots in order, exactly counted and readable. -/
structure ReadableBundle (isUuid : String -> Bool)
    (artifacts : NodeArtifactRuntime Store Failure)
    (read : Store -> ArtifactRead -> Except Failure ByteArray) (after : Store)
    (snapshots : List (BoundedJsonValue Number)) (bundle : FilePageBundle) : Prop where
  pages : exists parts, parts.flatten = snapshots ∧
    List.Forall₂ (WrittenPage read after) parts bundle.pages
  itemCount : bundle.itemCount = snapshots.length
  pageCount : bundle.pageCount = bundle.pages.length
  totalBytes : (bundle.pages.map fun page => page.reference.byteLength).sum ≤
    filePageLimits.totalBytes
  schema : filePageBundleSchema isUuid bundle = true
  reader : Pages.records artifacts after bundle.pages = .ok snapshots

theorem StoredPage.writtenPage {after : Store} {page : List EncodedFilePageRecord}
    {stored : FilePageReference} (h : StoredPage isUuid read after page stored)
    {snapshots : List (BoundedJsonValue Number)} (hpage : PageOf snapshots page) (hne : page ≠ [])
    (hfits : FitsPage page) : WrittenPage read after snapshots stored := by
  have hlength : snapshots.length = page.length := hpage.length_eq
  exact
    { nonempty := by
        intro hempty
        rw [hempty] at hlength
        exact hne (List.length_eq_zero_iff.mp hlength.symm)
      items := by rw [hlength]; exact hfits.items
      bytes := by rw [← hpage.pageText, hpage.bytes]; exact hfits.bytes
      members := by rw [hpage.members]; exact hfits.members
      depth := hpage.depth
      byteLength := by rw [h.byteLength, size_utf8Bytes, hpage.pageText]
      content := by rw [← hpage.pageText]; exact h.content
      parsed := parseJson_stringify hpage.ordered }

theorem sum_byteLength {after : Store} {parts : List (List (BoundedJsonValue Number))}
    {pages : List (List EncodedFilePageRecord)} {stored : List FilePageReference}
    (hparts : List.Forall₂ PageOf parts pages)
    (hstored : List.Forall₂ (StoredPage isUuid read after) pages stored) :
    (stored.map fun page => page.reference.byteLength).sum = totalPageBytes pages := by
  induction hparts generalizing stored with
  | nil =>
      cases hstored
      rfl
  | @cons part page parts pages hpage _ ih =>
      cases hstored with
      | cons hfirst hothers =>
          rw [List.map_cons, List.sum_cons, ih hothers, totalPageBytes_cons, hfirst.byteLength,
            size_utf8Bytes, hpage.bytes]

theorem forall₂_writtenPage {after : Store} {parts : List (List (BoundedJsonValue Number))}
    {pages : List (List EncodedFilePageRecord)} {stored : List FilePageReference}
    (hparts : List.Forall₂ PageOf parts pages)
    (hstored : List.Forall₂ (StoredPage isUuid read after) pages stored)
    (hfits : forall page, page ∈ pages -> page ≠ [] ∧ FitsPage page) :
    List.Forall₂ (WrittenPage read after) parts stored := by
  induction hparts generalizing stored with
  | nil =>
      cases hstored
      exact List.Forall₂.nil
  | @cons part page parts pages hpage _ ih =>
      cases hstored with
      | cons hfirst hothers =>
          have hpageFits := hfits page (List.mem_cons_self ..)
          apply List.Forall₂.cons
          · exact hfirst.writtenPage hpage hpageFits.left hpageFits.right
          · exact ih hothers fun other hother => hfits other (List.mem_cons_of_mem _ hother)

theorem filePageReferenceSchema_of_mem {after : Store}
    {parts : List (List (BoundedJsonValue Number))} {pages : List (List EncodedFilePageRecord)}
    {stored : List FilePageReference} (hparts : List.Forall₂ PageOf parts pages)
    (hstored : List.Forall₂ (StoredPage isUuid read after) pages stored)
    (hfits : forall page, page ∈ pages -> FitsPage page) :
    stored.all (filePageReferenceSchema isUuid) = true := by
  induction hparts generalizing stored with
  | nil =>
      cases hstored
      rfl
  | @cons part page parts pages hpage _ ih =>
      cases hstored with
      | cons hfirst hothers =>
          rw [List.all_cons, Bool.and_eq_true]
          constructor
          · exact hfirst.filePageReferenceSchema hpage (hfits page (List.mem_cons_self ..))
          · exact ih hothers fun other hother => hfits other (List.mem_cons_of_mem _ hother)

theorem WrittenAs.readableBundle (hstores : StoresArtifacts isUuid artifacts read)
    {store after : Store} {records : List EncodedFilePageRecord} {bundle : FilePageBundle}
    (h : WrittenAs artifacts store records bundle after)
    {snapshots : List (BoundedJsonValue Number)}
    (hrecords : List.Forall₂ RecordOf snapshots records) :
    ReadableBundle isUuid artifacts read after snapshots bundle := by
  have hflat : (filePages records).flatten = records := by
    rw [filePages, flatten_fillPages]
    rfl
  rw [← hflat] at hrecords
  rcases exists_forall₂_flatten hrecords with ⟨parts, hflatten, hparts⟩
  rw [hflat] at hrecords
  have hfits := fitsPage_of_mem_filePages hrecords
  have hlength : snapshots.length = records.length := hrecords.length_eq
  rcases foldlM_storePage_spec hstores h.stored with ⟨stored, hadded, hstored, _⟩
  have hpages : bundle.pages = stored := hadded
  rw [← hpages] at hstored
  have hitems := h.items
  have hcount := h.itemCount
  exact
    { pages := ⟨parts, hflatten, forall₂_writtenPage hparts hstored hfits⟩
      itemCount := by rw [hlength]; exact hcount
      pageCount := by rw [h.pageCount, h.length]
      totalBytes := by rw [sum_byteLength hparts hstored]; exact h.bytes
      schema := by
        have hschema := filePageReferenceSchema_of_mem hparts hstored
          fun page hpage => (hfits page hpage).right
        have hcounts := h.pages
        rw [h.pageCount] at hcounts
        simp [filePageBundleSchema, hschema, hcount, hitems, h.pageCount, h.length, hcounts]
      reader := by
        have hread := foldlM_readPage_spec hparts hstored
          (fun page hpage => (hfits page hpage).right)
          { bytes := 0, count := 0, yielded := [] }
          (by rw [Nat.zero_add]; exact h.bytes)
          (by rw [Nat.zero_add, hflatten, hlength]; exact hitems)
        rw [Pages.records, hstores.reader]
        dsimp only
        rw [hread, hflatten]
        rfl }

/-- File pages that are written can be read: a bundle holds the encoded records in order,
within all limits, and a created file takes the same records from it. A sequence is refused
only for a limit that its pages exceed. -/
theorem written_pages_readable (hstores : StoresArtifacts isUuid artifacts read) (store : Store)
    {values : List (ScriptValue Number)} {records : List EncodedFilePageRecord}
    (hencoded : List.Forall₂ (fun value record => encodeFilePageRecord value = .ok record)
      values records) :
    exists snapshots : List (BoundedJsonValue Number),
      List.Forall₂ (fun value snapshot => canonicalizeBoundedJson value recordLimits = .ok snapshot)
        values snapshots ∧
      List.Forall₂ (fun snapshot record => record.json = stringify snapshot)
        snapshots records ∧
      (forall bundle after,
        writeFilePages (some artifacts) store records = .ok (bundle, after) ->
          ReadableBundle isUuid artifacts read after snapshots bundle) ∧
      (forall reason,
        writeFilePages (some artifacts) store records = .error (.refused reason) ->
          ExceedsLimit artifacts store records reason) := by
  have hsnapshots : exists snapshots : List (BoundedJsonValue Number),
      List.Forall₂ (fun value snapshot =>
        canonicalizeBoundedJson value recordLimits = .ok snapshot) values snapshots ∧
      List.Forall₂ RecordOf snapshots records := by
    induction hencoded with
    | nil => exact ⟨[], List.Forall₂.nil, List.Forall₂.nil⟩
    | cons hfirst _ ih =>
        rcases ih with ⟨snapshots, hvalues, hrecords⟩
        rcases exists_recordOf hfirst with ⟨snapshot, hvalue, hrecord⟩
        exact ⟨snapshot :: snapshots, List.Forall₂.cons hvalue hvalues,
          List.Forall₂.cons hrecord hrecords⟩
  rcases hsnapshots with ⟨snapshots, hvalues, hrecords⟩
  refine ⟨snapshots, hvalues, hrecords.imp fun _ _ hrecord => hrecord.json, ?_, ?_⟩
  · intro bundle after hwritten
    exact (writtenAs_of_writeFilePages hwritten).readableBundle hstores hrecords
  · intro reason hrefused
    exact exceedsLimit_of_writeFilePages hrefused

end

/-!
## Two written pages

A runtime with room for two artifacts stores one record more than a page takes.
-/

def firstArtifactId : String :=
  "00000000-0000-4000-8000-000000000001"

def secondArtifactId : String :=
  "00000000-0000-4000-8000-000000000002"

def sampleSha256 : String :=
  "f608ba6addaa0f6d2a075a10b2041ee619dd6b3eda40727c54a2051b235762a8"

def sampleReference (artifactId : String) (request : ArtifactWrite) : NodeArtifactReference :=
  { artifactId
    byteLength := request.body.size
    mediaType := request.mediaType
    sha256 := sampleSha256 }

def sampleRead (store : List ByteArray) (request : ArtifactRead) : Except Unit ByteArray :=
  let stored := if request.reference.artifactId = firstArtifactId then store[0]? else store[1]?
  match stored with
  | none => .error ()
  | some body => if body.size ≤ request.maxBytes then .ok body else .error ()

def sampleArtifacts : NodeArtifactRuntime (List ByteArray) Unit :=
  { write := fun store request =>
      match store with
      | [] => .ok (sampleReference firstArtifactId request, [request.body])
      | [first] => .ok (sampleReference secondArtifactId request, [first, request.body])
      | _ => .error ()
    read := some sampleRead }

theorem storesArtifacts_sampleArtifacts :
    StoresArtifacts isUuid sampleArtifacts sampleRead where
  reader := rfl
  described := by
    intro store request reference after h
    have hfirst : isUuid firstArtifactId = true := by decide
    have hsecond : isUuid secondArtifactId = true := by decide
    have hsha : isSha256 sampleSha256 = true := by decide
    match store with
    | [] =>
        cases h
        exact ⟨rfl, rfl, hfirst, hsha⟩
    | [first] =>
        cases h
        exact ⟨rfl, rfl, hsecond, hsha⟩
    | _ :: _ :: _ => cases h
  readable := by
    intro store request reference after h maxBytes hmax
    match store with
    | [] =>
        cases h
        exact if_pos hmax
    | [first] =>
        cases h
        exact if_pos hmax
    | _ :: _ :: _ => cases h
  kept := by
    intro store request reference after h earlier body hread
    match store with
    | [] =>
        rw [sampleRead] at hread
        simp at hread
    | [first] =>
        cases h
        rw [sampleRead] at hread ⊢
        by_cases hid : earlier.reference.artifactId = firstArtifactId
        · rw [if_pos hid] at hread ⊢
          exact hread
        · rw [if_neg hid] at hread
          cases hread
    | _ :: _ :: _ => cases h

theorem writeFilePages_concat {Store Failure : Type}
    {artifacts : NodeArtifactRuntime Store Failure} {store : Store}
    {records : List EncodedFilePageRecord} {record : EncodedFilePageRecord}
    {filled last flushed : PageWriter Store}
    (hfilled : records.foldlM (writeRecord artifacts) (startPages store) = .ok filled)
    (hlast : writeRecord artifacts filled record = .ok last)
    (hflush : flush artifacts last = .ok flushed) :
    writeFilePages (some artifacts) store (records ++ [record]) =
      .ok (flushed.bundle, flushed.store) := by
  simp only [writeFilePages, List.foldlM_append, hfilled, List.foldlM_cons, List.foldlM_nil,
    bind, Except.bind, hlast, hflush, pure, Except.pure]

def sampleCount : Nat :=
  filePageLimits.items + 1

def sampleValues : List (ScriptValue Nat) :=
  List.replicate sampleCount (.number (.finite 7))

def sampleRecord : EncodedFilePageRecord :=
  { json := ['7'], bytes := 1, members := 1 }

def sampleRecords : List EncodedFilePageRecord :=
  List.replicate sampleCount sampleRecord

theorem encodeFilePageRecord_sampleValues :
    List.Forall₂ (fun value record => encodeFilePageRecord value = .ok record)
      sampleValues sampleRecords := by
  rw [sampleValues, sampleRecords]
  induction sampleCount with
  | zero => exact List.Forall₂.nil
  | succ count ih => exact List.Forall₂.cons rfl ih

def sampleWriter (count : Nat) : PageWriter (List ByteArray) :=
  { startPages [] with
    pending := List.replicate count ['7']
    pendingBytes := 2 + count + (count - 1)
    pendingMembers := count
    itemCount := count }

theorem fills_sampleWriter {count : Nat} (h : count ≤ filePageLimits.items) :
    (List.replicate count sampleRecord).foldlM (writeRecord sampleArtifacts) (startPages []) =
      .ok (sampleWriter count) := by
  induction count with
  | zero => rfl
  | succ count ih =>
      have hcount : count < 1000 := h
      have hbefore := ih (Nat.le_of_lt hcount)
      rw [List.replicate_succ', List.foldlM_append, hbefore]
      have hroom : ¬ (sampleWriter count).itemCount ≥ filePageLimits.totalItems := by
        show ¬ count ≥ 100000
        omega
      have hseparator : separatorBytes (sampleWriter count).pending =
          if count > 0 then 1 else 0 := by
        rw [separatorBytes, sampleWriter, List.length_replicate]
      have hfits : pageWouldOverflow (sampleWriter count) sampleRecord = false := by
        rw [pageWouldOverflow, hseparator]
        simp only [sampleWriter, sampleRecord, filePageLimits, List.length_replicate]
        split <;> simp <;> omega
      have hbytes : ¬ (sampleWriter count).storedBytes + (sampleWriter count).pendingBytes +
          (sampleRecord.bytes + separatorBytes (sampleWriter count).pending) >
            filePageLimits.totalBytes := by
        rw [hseparator]
        simp only [sampleWriter, startPages, sampleRecord, filePageLimits]
        split <;> omega
      show writeRecord sampleArtifacts (sampleWriter count) sampleRecord >>= pure = _
      rw [writeRecord, if_neg hroom, hfits, if_neg Bool.false_ne_true, addRecord]
      rw [if_neg hbytes, hseparator]
      simp only [sampleWriter, sampleRecord, startPages, List.replicate_succ', bind, Except.bind,
        pure, Except.pure]
      congr 2
      split <;> omega

def sampleRequest : ArtifactWrite :=
  pageWrite (List.replicate filePageLimits.items ['7'])

theorem size_pageWrite_sample (count : Nat) :
    (pageWrite (List.replicate count ['7'])).body.size = 2 + count + (count - 1) := by
  have hopen : ('[' : Char).utf8Size = 1 := by decide
  have hclose : (']' : Char).utf8Size = 1 := by decide
  have hdigit : utf8ByteLength ['7'] = 1 := by decide
  rw [pageWrite]
  dsimp only
  rw [size_utf8Bytes, pageText, List.cons_append, utf8ByteLength_cons, utf8ByteLength_append,
    utf8ByteLength_cons, utf8ByteLength_nil, commaJoin_bytes, List.map_replicate,
    List.sum_replicate_nat, List.length_replicate, hopen, hclose, hdigit]
  omega

/-- The page that is full is stored, and the next record begins another one. -/
def secondWriter : PageWriter (List ByteArray) :=
  { store := [sampleRequest.body]
    pages := [{ kind := "artifact", reference := sampleReference firstArtifactId sampleRequest }]
    pending := [['7']]
    pendingBytes := 3
    pendingMembers := 1
    storedBytes := 2001
    itemCount := sampleCount }

theorem writeRecord_sampleWriter :
    writeRecord sampleArtifacts (sampleWriter filePageLimits.items) sampleRecord =
      .ok secondWriter := by
  have hfull : pageWouldOverflow (sampleWriter filePageLimits.items) sampleRecord = true := by
    rw [pageWouldOverflow, sampleWriter, List.length_replicate]
    rfl
  have hdescribed : ¬ descriptorBytes
      { pages := secondWriter.pages, itemCount := filePageLimits.items, pageCount := 1 } >
        storedInlineBytes := by
    rw [secondWriter, sampleReference, sampleRequest, size_pageWrite_sample]
    decide +kernel
  have hflush : flush sampleArtifacts (sampleWriter filePageLimits.items) =
      .ok { secondWriter with
            pending := []
            pendingBytes := 2
            pendingMembers := 0
            itemCount := filePageLimits.items } := by
    rw [flush, if_neg (by rw [sampleWriter, List.isEmpty_replicate]; decide), if_neg (by decide),
      if_neg (by decide)]
    exact if_neg hdescribed
  rw [writeRecord, if_neg (by decide), hfull, if_pos rfl, hflush]
  rfl

def lastWriter : PageWriter (List ByteArray) :=
  { secondWriter with
    store := [sampleRequest.body, (pageWrite [['7']]).body]
    pages := secondWriter.pages ++
      [{ kind := "artifact", reference := sampleReference secondArtifactId (pageWrite [['7']]) }]
    pending := []
    pendingBytes := 2
    pendingMembers := 0
    storedBytes := 2004 }

theorem flush_secondWriter : flush sampleArtifacts secondWriter = .ok lastWriter := by
  have hdescribed : ¬ descriptorBytes lastWriter.bundle > storedInlineBytes := by
    rw [lastWriter, secondWriter, sampleReference, sampleReference, sampleRequest,
      size_pageWrite_sample]
    decide +kernel
  rw [flush, if_neg (by decide), if_neg (by decide), if_neg (by decide)]
  exact if_neg hdescribed

theorem written_pages_readable_sample :
    exists (snapshots : List (BoundedJsonValue Nat)) (bundle : FilePageBundle)
        (after : List ByteArray),
      writeFilePages (some sampleArtifacts) [] sampleRecords = .ok (bundle, after) ∧
      bundle.pages.length = 2 ∧
      ReadableBundle isUuid sampleArtifacts sampleRead after snapshots bundle := by
  rcases written_pages_readable storesArtifacts_sampleArtifacts []
    encodeFilePageRecord_sampleValues with ⟨snapshots, _, _, hreadable, _⟩
  have hwritten : writeFilePages (some sampleArtifacts) [] sampleRecords =
      .ok (lastWriter.bundle, lastWriter.store) := by
    rw [sampleRecords, sampleCount, List.replicate_succ']
    exact writeFilePages_concat (fills_sampleWriter (Nat.le_refl _)) writeRecord_sampleWriter
      flush_secondWriter
  exact ⟨snapshots, _, _, hwritten, rfl, hreadable _ _ hwritten⟩

end Pages
end Pertexo
