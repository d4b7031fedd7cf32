import Pertexo.Pages.Write

/-!
# Refused sequences

The writer refuses a sequence of records only for a limit that the pages of the
whole sequence exceed, whichever records it has read by then.
-/

namespace Pertexo
namespace Pages

open Library
open Values

section

variable {Store Failure : Type}

/-- The limit of each reason, for the pages that a sequence of records has. The size of
a descriptor does not depend on the references that the later pages would get. -/
def ExceedsLimit (artifacts : NodeArtifactRuntime Store Failure) (store : Store)
    (records : List EncodedFilePageRecord) : FilePagesReason -> Prop
  | .items => filePageLimits.totalItems < records.length
  | .bytes => filePageLimits.totalBytes < totalPageBytes (filePages records)
  | .pages => filePageLimits.pages < (filePages records).length
  | .descriptor =>
      exists written later references after,
        filePages records = written ++ later ∧
        storePages artifacts store written = .ok (references, after) ∧
        forall others : List FilePageReference, others.length = later.length ->
          storedInlineBytes < descriptorBytes
            { pages := references ++ others
              itemCount := records.length
              pageCount := (filePages records).length }
  | .storage => False
  | .record => False
  | .text => False

variable {artifacts : NodeArtifactRuntime Store Failure} {store : Store}
  {records rest : List EncodedFilePageRecord} {written : List (List EncodedFilePageRecord)}
  {page : List EncodedFilePageRecord} {record : EncodedFilePageRecord}
  {writer : PageWriter Store} {reason : FilePagesReason}

theorem WriterAt.exceedsLimit_of_flush
    (h : WriterAt artifacts store records rest written page writer)
    (hnext : fillPages pageTakes page rest = page :: fillPages pageTakes [] rest)
    (hflush : flush artifacts writer = .error (.refused reason)) :
    ExceedsLimit artifacts store records reason := by
  have hplan : filePages records = (written ++ [page]) ++ fillPages pageTakes [] rest := by
    rw [h.continues, hnext, List.append_assoc]
    rfl
  have hcount := h.itemCount
  have hwritten := h.pageCount
  rw [flush] at hflush
  split at hflush
  · cases hflush
  split at hflush
  · next hpages =>
    cases hflush
    rw [ExceedsLimit, hplan]
    simp only [List.length_append, List.length_singleton]
    omega
  split at hflush
  · next hbytes =>
    cases hflush
    rw [h.storedBytes, h.pendingBytes] at hbytes
    rw [ExceedsLimit, hplan]
    simp only [totalPageBytes_append, totalPageBytes_cons]
    omega
  split at hflush
  · cases hflush
  · next reference after hwrite =>
    dsimp only at hflush
    split at hflush
    · next hdescriptor =>
      cases hflush
      have hstored := h.stored
      rw [h.pending] at hwrite
      rw [storePages] at hstored
      refine ⟨written ++ [page], fillPages pageTakes [] rest,
        writer.pages ++ [{ kind := "artifact", reference }], after, hplan, ?_, ?_⟩
      · rw [storePages, List.foldlM_append, hstored]
        simp [storePage, hwrite, bind, Except.bind, pure, Except.pure]
      · intro others hothers
        apply Nat.lt_of_lt_of_le hdescriptor
        apply descriptorBytes_le
        · dsimp only
          omega
        · rw [hplan]
          simp only [List.length_append, List.length_singleton]
          omega
    · cases hflush

theorem WriterAt.exceedsLimit_of_addRecord
    (h : WriterAt artifacts store records (record :: rest) written page writer)
    (htakes : page = [] ∨ pageTakes page record = true)
    (hadd : @addRecord Store Failure writer record = .error (.refused reason)) :
    ExceedsLimit artifacts store records reason := by
  rw [addRecord] at hadd
  split at hadd
  · next hbytes =>
    cases hadd
    have hplan : filePages records = written ++ fillPages pageTakes (page ++ [record]) rest := by
      rw [h.continues, fillPages, if_pos]
      cases htakes with
      | inl hempty => simp [hempty]
      | inr htaken => simp [htaken]
    rcases exists_fillPages_eq_cons pageTakes (page ++ [record]) (by simp) rest
      with ⟨added, later, hfirst⟩
    have hpage := pageBytes_le_append (page ++ [record]) added
    rw [h.pageBytes_concat] at hpage
    have hstored := h.storedBytes
    rw [ExceedsLimit, hplan, hfirst, totalPageBytes_append, totalPageBytes_cons]
    omega
  · cases hadd

theorem WriterAt.exceedsLimit_of_writeRecord
    (h : WriterAt artifacts store records (record :: rest) written page writer)
    (hwrite : writeRecord artifacts writer record = .error (.refused reason)) :
    ExceedsLimit artifacts store records reason := by
  rw [writeRecord] at hwrite
  split at hwrite
  · next hitems =>
    cases hwrite
    have hcount := h.itemCount
    rw [List.length_cons] at hcount
    rw [ExceedsLimit]
    omega
  split at hwrite
  · next hoverflow =>
    have hnext := h.fillPages_of_overflow hoverflow
    cases hflush : flush artifacts writer with
    | error failure =>
        rw [hflush] at hwrite
        cases hwrite
        exact h.exceedsLimit_of_flush hnext hflush
    | ok flushed =>
        rw [hflush] at hwrite
        have hat := h.after_flush hnext (h.ne_nil_of_overflow hoverflow) hflush
        exact hat.exceedsLimit_of_addRecord (Or.inl rfl) hwrite
  · next hoverflow =>
    exact h.exceedsLimit_of_addRecord (h.takes_of_not_overflow hoverflow) hwrite

theorem WriterAt.exceedsLimit_of_run
    (h : WriterAt artifacts store records rest written page writer)
    (hrun : rest.foldlM (writeRecord artifacts) writer = .error (.refused reason)) :
    ExceedsLimit artifacts store records reason := by
  induction rest generalizing written page writer with
  | nil => cases hrun
  | cons record rest ih =>
      rw [List.foldlM_cons] at hrun
      cases hnext : writeRecord artifacts writer record with
      | error failure =>
          rw [hnext] at hrun
          cases hrun
          exact h.exceedsLimit_of_writeRecord hnext
      | ok next =>
          rw [hnext] at hrun
          rcases h.after_writeRecord hnext with ⟨written, page, hat⟩
          exact ih hat hrun

/-- With a runtime to write to, only an exceeded limit makes the writer refuse. -/
theorem exceedsLimit_of_writeFilePages
    (h : writeFilePages (some artifacts) store records = .error (.refused reason)) :
    ExceedsLimit artifacts store records reason := by
  have hstart := writerAt_startPages artifacts store records
  rw [writeFilePages] at h
  cases hfilled : records.foldlM (writeRecord artifacts) (startPages store) with
  | error failure =>
      rw [hfilled] at h
      cases h
      exact hstart.exceedsLimit_of_run hfilled
  | ok filled =>
      rcases hstart.after_run hfilled with ⟨written, page, hat⟩
      rw [hfilled] at h
      cases hflush : flush artifacts filled with
      | ok last =>
          change Except.bind (flush artifacts filled) _ = _ at h
          rw [hflush] at h
          cases h
      | error failure =>
          change Except.bind (flush artifacts filled) _ = _ at h
          rw [hflush] at h
          cases h
          cases page with
          | nil =>
              rw [hat.flush_of_nil] at hflush
              cases hflush
          | cons first others => exact hat.exceedsLimit_of_flush rfl hflush

structure WrittenAs (artifacts : NodeArtifactRuntime Store Failure) (store : Store)
    (records : List EncodedFilePageRecord) (bundle : FilePageBundle) (after : Store) : Prop where
  stored : storePages artifacts store (filePages records) = .ok (bundle.pages, after)
  pageCount : bundle.pageCount = (filePages records).length
  length : bundle.pages.length = (filePages records).length
  itemCount : bundle.itemCount = records.length
  pages : bundle.pageCount ≤ filePageLimits.pages
  bytes : totalPageBytes (filePages records) ≤ filePageLimits.totalBytes
  items : records.length ≤ filePageLimits.totalItems

theorem WriterAt.writtenAs (h : WriterAt artifacts store records [] written [] writer) :
    WrittenAs artifacts store records writer.bundle writer.store := by
  have hplan : filePages records = written := by
    rw [h.continues]
    simp [fillPages]
  have hcount : writer.itemCount = records.length := h.itemCount
  exact
    { stored := hplan ▸ h.stored
      pageCount := hplan ▸ h.pageCount
      length := hplan ▸ h.pageCount
      itemCount := hcount
      pages := h.pages
      bytes := by rw [hplan, ← h.storedBytes]; exact h.bytes
      items := hcount ▸ h.items }

theorem writtenAs_of_writeFilePages {bundle : FilePageBundle} {after : Store}
    (h : writeFilePages (some artifacts) store records = .ok (bundle, after)) :
    WrittenAs artifacts store records bundle after := by
  rw [writeFilePages] at h
  rcases exists_of_bind_eq_ok h with ⟨filled, hfilled, hrest⟩
  rcases exists_of_bind_eq_ok hrest with ⟨last, hlast, hresult⟩
  cases pure_eq_ok_iff.mp hresult
  rcases (writerAt_startPages artifacts store records).after_run hfilled with ⟨written, page, hat⟩
  cases page with
  | nil =>
      rw [hat.flush_of_nil] at hlast
      cases hlast
      exact hat.writtenAs
  | cons first others => exact (hat.after_flush rfl (by simp) hlast).writtenAs

end

end Pages
end Pertexo
