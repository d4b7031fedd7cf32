import Mathlib.Data.List.Induction
import Pertexo.Engine.Scheduling
import Pertexo.Library.Results
import Pertexo.Values.OrdinalOrder

/-!
# Branch ledgers

## Recorded entries

After any dispositions, the entry of a branch is the first disposition that
was recorded for it, or the declared entry as long as there is none.
-/

namespace Pertexo
namespace Engine

open Library
open Values

def recordedEntry (updates : List BranchLedgerEntry) (entry : BranchLedgerEntry) :
    BranchLedgerEntry :=
  (updates.find? fun update => update.branchId == entry.branchId).getD entry

/-- The declared ledger, or the sorted ledger of the recorded entries. -/
def ledgerAfter (declared updates : List BranchLedgerEntry) : List BranchLedgerEntry :=
  if updates.isEmpty then declared else sortLedger (declared.map (recordedEntry updates))

def recordDispositions (declared updates : List BranchLedgerEntry) :
    EngineResult (List BranchLedgerEntry) :=
  updates.foldlM recordBranchDisposition declared

/-- The updates are about declared branches, and one branch has one disposition. -/
structure AreConsistent (declared updates : List BranchLedgerEntry) : Prop where
  known : forall update, update ∈ updates ->
    exists entry, entry ∈ declared ∧ entry.branchId = update.branchId
  agree : forall update, update ∈ updates -> forall other, other ∈ updates ->
    update.branchId = other.branchId -> update = other

def IsPending (entry : BranchLedgerEntry) : Prop :=
  entry.disposition = .pending

theorem comparesTotally_ledger :
    ComparesTotally fun left right : BranchLedgerEntry =>
      compareOrdinal left.branchId right.branchId :=
  comparesTotally_ordinal.comap BranchLedgerEntry.branchId

@[simp] theorem sortLedger_sortLedger (ledger : List BranchLedgerEntry) :
    sortLedger (sortLedger ledger) = sortLedger ledger :=
  comparesTotally_ledger.sortWith_sortWith ledger

@[simp] theorem mem_sortLedger {ledger : List BranchLedgerEntry} {entry : BranchLedgerEntry} :
    entry ∈ sortLedger ledger ↔ entry ∈ ledger :=
  mem_sortWith

theorem perm_sortLedger (ledger : List BranchLedgerEntry) : (sortLedger ledger).Perm ledger :=
  perm_sortWith _ ledger

theorem map_sortLedger {f : BranchLedgerEntry -> BranchLedgerEntry}
    (hf : forall entry, (f entry).branchId = entry.branchId) (ledger : List BranchLedgerEntry) :
    (sortLedger ledger).map f = sortLedger (ledger.map f) := by
  apply map_sortWith
  intro left _ right _
  rw [hf, hf]

section

variable {declared updates : List BranchLedgerEntry} {entry update : BranchLedgerEntry}

@[simp] theorem branchId_recordedEntry (updates : List BranchLedgerEntry)
    (entry : BranchLedgerEntry) : (recordedEntry updates entry).branchId = entry.branchId := by
  unfold recordedEntry
  cases hfind : updates.find? fun update => update.branchId == entry.branchId with
  | none => rfl
  | some update =>
      have hbranch := List.find?_some hfind
      exact eq_of_beq hbranch

theorem recordedEntry_of_not_mem
    (h : forall update, update ∈ updates -> update.branchId ≠ entry.branchId) :
    recordedEntry updates entry = entry := by
  have hnone : (updates.find? fun update => update.branchId == entry.branchId) = none := by
    rw [List.find?_eq_none]
    intro update hupdate
    rw [beq_iff_eq]
    exact h update hupdate
  rw [recordedEntry, hnone]
  rfl

theorem AreConsistent.recordedEntry_eq (h : AreConsistent declared updates)
    (hupdate : update ∈ updates) (hbranch : update.branchId = entry.branchId) :
    recordedEntry updates entry = update := by
  unfold recordedEntry
  cases hfind : updates.find? fun other => other.branchId == entry.branchId with
  | none =>
      rw [List.find?_eq_none] at hfind
      exact absurd (beq_iff_eq.mpr hbranch) (hfind update hupdate)
  | some other =>
      have hother := List.find?_some hfind
      rw [beq_iff_eq] at hother
      exact h.agree other (List.mem_of_find?_eq_some hfind) update hupdate
        (hother.trans hbranch.symm)

/-- What is recorded depends on the updates, not on their order or number. -/
theorem AreConsistent.recordedEntry_congr {more : List BranchLedgerEntry}
    (h : AreConsistent declared updates) (h' : AreConsistent declared more)
    (hsame : forall update, update ∈ updates ↔ update ∈ more) (entry : BranchLedgerEntry) :
    recordedEntry updates entry = recordedEntry more entry := by
  by_cases hmem : exists update, update ∈ updates ∧ update.branchId = entry.branchId
  · rcases hmem with ⟨update, hupdate, hbranch⟩
    rw [h.recordedEntry_eq hupdate hbranch, h'.recordedEntry_eq ((hsame update).mp hupdate) hbranch]
  · rw [recordedEntry_of_not_mem, recordedEntry_of_not_mem]
    · intro update hupdate hbranch
      exact hmem ⟨update, (hsame update).mpr hupdate, hbranch⟩
    · intro update hupdate hbranch
      exact hmem ⟨update, hupdate, hbranch⟩

theorem AreConsistent.congr {more : List BranchLedgerEntry} (h : AreConsistent declared updates)
    (hsame : forall update, update ∈ updates ↔ update ∈ more) : AreConsistent declared more where
  known := fun update hupdate => h.known update ((hsame update).mpr hupdate)
  agree := fun update hupdate other hother =>
    h.agree update ((hsame update).mpr hupdate) other ((hsame other).mpr hother)

theorem mem_ledgerAfter :
    entry ∈ ledgerAfter declared updates ↔
      exists branch, branch ∈ declared ∧ recordedEntry updates branch = entry := by
  unfold ledgerAfter
  cases updates with
  | nil => simp [recordedEntry]
  | cons update rest => simp

theorem sortLedger_map_ledgerAfter {f : BranchLedgerEntry -> BranchLedgerEntry}
    (hf : forall entry, (f entry).branchId = entry.branchId) :
    sortLedger ((ledgerAfter declared updates).map f) =
      sortLedger (declared.map fun branch => f (recordedEntry updates branch)) := by
  unfold ledgerAfter
  cases updates with
  | nil => rfl
  | cons update rest =>
      rw [List.isEmpty_cons, if_neg (by simp), map_sortLedger hf, sortLedger_sortLedger,
        List.map_map]
      rfl

theorem ledgerAfter_concat (declared updates : List BranchLedgerEntry)
    (update : BranchLedgerEntry) :
    ledgerAfter declared (updates ++ [update]) =
      sortLedger (declared.map (recordedEntry (updates ++ [update]))) := by
  rw [ledgerAfter, if_neg (by simp)]

/-!
## Recording one disposition
-/

theorem find?_ledgerAfter (updates : List BranchLedgerEntry)
    (hknown : exists branch, branch ∈ declared ∧ branch.branchId = update.branchId) :
    exists branch, branch ∈ declared ∧ branch.branchId = update.branchId ∧
      ((ledgerAfter declared updates).find? fun entry => entry.branchId == update.branchId) =
        some (recordedEntry updates branch) := by
  cases hfind : (ledgerAfter declared updates).find? fun entry =>
      entry.branchId == update.branchId with
  | none =>
      rw [List.find?_eq_none] at hfind
      rcases hknown with ⟨branch, hbranch, hsame⟩
      have hmem : recordedEntry updates branch ∈ ledgerAfter declared updates :=
        mem_ledgerAfter.mpr ⟨branch, hbranch, rfl⟩
      apply absurd _ (hfind (recordedEntry updates branch) hmem)
      rw [beq_iff_eq, branchId_recordedEntry]
      exact hsame
  | some entry =>
      rcases mem_ledgerAfter.mp (List.mem_of_find?_eq_some hfind) with ⟨branch, hbranch, rfl⟩
      have hsame := List.find?_some hfind
      rw [beq_iff_eq, branchId_recordedEntry] at hsame
      exact ⟨branch, hbranch, hsame, rfl⟩

theorem recordBranchDisposition_unknown
    (h : ¬ exists branch, branch ∈ declared ∧ branch.branchId = update.branchId) :
    exists e, recordBranchDisposition (ledgerAfter declared updates) update = Except.error e := by
  have hfind : ((ledgerAfter declared updates).find? fun entry =>
      entry.branchId == update.branchId) = none := by
    rw [List.find?_eq_none]
    intro entry hentry
    rw [beq_iff_eq]
    intro hsame
    rcases mem_ledgerAfter.mp hentry with ⟨branch, hbranch, rfl⟩
    rw [branchId_recordedEntry] at hsame
    exact h ⟨branch, hbranch, hsame⟩
  rw [recordBranchDisposition, hfind]
  exact ⟨_, rfl⟩

theorem recordBranchDisposition_first (hpending : forall entry, entry ∈ declared -> IsPending entry)
    (hknown : exists branch, branch ∈ declared ∧ branch.branchId = update.branchId)
    (hfirst : forall other, other ∈ updates -> other.branchId ≠ update.branchId) :
    recordBranchDisposition (ledgerAfter declared updates) update =
      Except.ok (ledgerAfter declared (updates ++ [update])) := by
  rcases find?_ledgerAfter updates hknown with ⟨branch, hbranch, hsame, hfind⟩
  have hrecorded : recordedEntry updates branch = branch := by
    apply recordedEntry_of_not_mem
    rw [hsame]
    exact hfirst
  have hdisposition : branch.disposition = .pending := hpending branch hbranch
  rw [recordBranchDisposition, hfind, hrecorded]
  dsimp only
  rw [hdisposition, if_neg (by simp), sortLedger_map_ledgerAfter, ledgerAfter_concat]
  · congr 2
    apply List.map_congr_left
    intro entry _
    rw [branchId_recordedEntry]
    by_cases hentry : entry.branchId = update.branchId
    · rw [if_pos (beq_iff_eq.mpr hentry), recordedEntry, List.find?_append]
      have hnone : (updates.find? fun other => other.branchId == entry.branchId) = none := by
        rw [List.find?_eq_none]
        intro other hother
        rw [beq_iff_eq, hentry]
        exact hfirst other hother
      rw [hnone]
      simp [hentry]
    · rw [if_neg (by simpa using hentry), recordedEntry, recordedEntry, List.find?_append]
      have hnone : ([update].find? fun other => other.branchId == entry.branchId) = none := by
        simpa using Ne.symm hentry
      rw [hnone, Option.or_none]
  · intro entry
    split
    · next hentry => exact (eq_of_beq hentry).symm
    · rfl

theorem recordBranchDisposition_again (h : AreConsistent declared updates)
    (hterminal : forall other, other ∈ updates -> ¬ IsPending other) {recorded : BranchLedgerEntry}
    (hrecorded : recorded ∈ updates) (hsame : recorded.branchId = update.branchId) :
    if recorded = update then
      recordBranchDisposition (ledgerAfter declared updates) update =
        Except.ok (ledgerAfter declared updates)
    else exists e,
      recordBranchDisposition (ledgerAfter declared updates) update = Except.error e := by
  have hknown : exists branch, branch ∈ declared ∧ branch.branchId = update.branchId := by
    rcases h.known recorded hrecorded with ⟨branch, hbranch, hid⟩
    exact ⟨branch, hbranch, hid.trans hsame⟩
  rcases find?_ledgerAfter updates hknown with ⟨branch, _, hid, hfind⟩
  have hentry : recordedEntry updates branch = recorded :=
    h.recordedEntry_eq hrecorded (hsame.trans hid.symm)
  have hdisposition : (recorded.disposition != .pending) = true := by
    rw [bne_iff_ne]
    exact hterminal recorded hrecorded
  have hagree : (recorded.disposition == update.disposition &&
      sameOutputReference recorded.output update.output) = true ↔ recorded = update := by
    rw [Bool.and_eq_true, beq_iff_eq, sameOutputReference_iff]
    constructor
    · rintro ⟨hdisposition, houtput⟩
      cases recorded
      cases update
      cases hsame
      cases hdisposition
      cases houtput
      rfl
    · rintro rfl
      exact ⟨rfl, rfl⟩
  have hsorted : sortLedger (ledgerAfter declared updates) = ledgerAfter declared updates := by
    rw [ledgerAfter, if_neg, sortLedger_sortLedger]
    rw [List.isEmpty_iff]
    exact List.ne_nil_of_mem hrecorded
  rw [recordBranchDisposition, hfind, hentry]
  dsimp only
  rw [if_pos hdisposition]
  split
  · next heq => rw [if_pos (hagree.mpr heq), hsorted]
  · next hne =>
    rw [if_neg (mt hagree.mp hne)]
    exact ⟨_, rfl⟩

/-!
## Recording in any order
-/

theorem AreConsistent.concat (h : AreConsistent declared updates)
    (hknown : exists branch, branch ∈ declared ∧ branch.branchId = update.branchId)
    (hagree : forall other, other ∈ updates -> other.branchId = update.branchId ->
      other = update) : AreConsistent declared (updates ++ [update]) where
  known := by
    intro other hother
    rcases List.mem_append.mp hother with hold | hnew
    · exact h.known other hold
    · rw [List.mem_singleton.mp hnew]
      exact hknown
  agree := by
    intro left hleft right hright hsame
    rcases List.mem_append.mp hleft with hleft | hleft
    · rcases List.mem_append.mp hright with hright | hright
      · exact h.agree left hleft right hright hsame
      · rw [List.mem_singleton.mp hright] at hsame ⊢
        exact hagree left hleft hsame
    · rcases List.mem_append.mp hright with hright | hright
      · rw [List.mem_singleton.mp hleft] at hsame ⊢
        exact (hagree right hright hsame.symm).symm
      · rw [List.mem_singleton.mp hleft, List.mem_singleton.mp hright]

theorem AreConsistent.of_concat (h : AreConsistent declared (updates ++ [update])) :
    AreConsistent declared updates where
  known := fun other hother => h.known other (List.mem_append_left _ hother)
  agree := fun left hleft right hright =>
    h.agree left (List.mem_append_left _ hleft) right (List.mem_append_left _ hright)

/-- Consistent dispositions are all recorded, and any others are refused. -/
theorem recordDispositions_spec (hpending : forall entry, entry ∈ declared -> IsPending entry)
    (hterminal : forall update, update ∈ updates -> ¬ IsPending update) :
    (AreConsistent declared updates ->
      recordDispositions declared updates = Except.ok (ledgerAfter declared updates)) ∧
    (¬ AreConsistent declared updates ->
      exists e, recordDispositions declared updates = Except.error e) := by
  induction updates using List.reverseRecOn with
  | nil =>
      constructor
      · intro _
        rfl
      · intro hinconsistent
        apply absurd _ hinconsistent
        constructor
        · intro update hupdate
          cases hupdate
        · intro update hupdate
          cases hupdate
  | append_singleton updates update ih =>
      have hbefore : forall other, other ∈ updates -> ¬ IsPending other :=
        fun other hother => hterminal other (List.mem_append_left _ hother)
      rcases ih hbefore with ⟨hok, herror⟩
      have hsplit : recordDispositions declared (updates ++ [update]) =
          recordDispositions declared updates >>= fun ledger =>
            recordBranchDisposition ledger update := by
        rw [recordDispositions, List.foldlM_append]
        apply bind_congr
        intro ledger
        rw [List.foldlM_cons]
        exact bind_pure _
      rw [hsplit]
      constructor
      · intro hconsistent
        have hold := hconsistent.of_concat
        have hknown := hconsistent.known update
          (List.mem_append_right _ (List.mem_singleton_self _))
        rw [hok hold]
        show recordBranchDisposition (ledgerAfter declared updates) update = _
        by_cases hfirst : forall other, other ∈ updates -> other.branchId ≠ update.branchId
        · exact recordBranchDisposition_first hpending hknown hfirst
        · push Not at hfirst
          rcases hfirst with ⟨other, hother, hsame⟩
          have heq : other = update := hconsistent.agree other (List.mem_append_left _ hother)
            update (List.mem_append_right _ (List.mem_singleton_self _)) hsame
          have hagain := recordBranchDisposition_again hold hbefore hother hsame
          rw [if_pos heq] at hagain
          rw [hagain, ledgerAfter_concat, ledgerAfter, if_neg]
          · congr 2
            apply List.map_congr_left
            intro entry _
            apply hold.recordedEntry_congr hconsistent
            intro member
            rw [List.mem_append, List.mem_singleton]
            constructor
            · exact Or.inl
            · rintro (hmember | rfl)
              · exact hmember
              · rw [← heq]
                exact hother
          · rw [List.isEmpty_iff]
            exact List.ne_nil_of_mem hother
      · intro hinconsistent
        by_cases hold : AreConsistent declared updates
        · rw [hok hold]
          show exists e, recordBranchDisposition (ledgerAfter declared updates) update =
            Except.error e
          by_cases hknown : exists branch, branch ∈ declared ∧ branch.branchId = update.branchId
          · have hconflict : exists other, other ∈ updates ∧ other.branchId = update.branchId ∧
                other ≠ update := by
              by_contra hnone
              push Not at hnone
              exact hinconsistent (hold.concat hknown hnone)
            rcases hconflict with ⟨other, hother, hsame, hne⟩
            have hagain := recordBranchDisposition_again hold hbefore hother hsame
            rw [if_neg hne] at hagain
            exact hagain
          · exact recordBranchDisposition_unknown hknown
        · rcases herror hold with ⟨e, he⟩
          rw [he]
          exact ⟨e, rfl⟩

end

end Engine
end Pertexo
