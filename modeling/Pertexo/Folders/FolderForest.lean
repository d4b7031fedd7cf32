import Pertexo.Folders.FolderCommands

/-!
# The folder forest

Every folder has a path to a top-level folder that fits the depth limit, and
siblings have names of their own.
-/

namespace Pertexo
namespace Folders

open Library

section

variable {Id : Type}

structure FolderForest (folders : List (FolderRow Id)) : Prop where
  ids : (folders.map FolderRow.id).Nodup
  paths : forall row, row ∈ folders -> exists path, FolderPath folders (some row.id) path ∧
    path.length ≤ FOLDER_DEPTH_LIMIT
  keys : forall row, row ∈ folders -> row.nameKey = nameKey row.name
  siblings : forall row, row ∈ folders -> forall other, other ∈ folders ->
    row.parentId = other.parentId -> row.nameKey = other.nameKey -> row.id = other.id
  count : folders.length ≤ FOLDER_LIMIT

theorem folderForest_nil : FolderForest ([] : List (FolderRow Id)) where
  ids := List.nodup_nil
  paths := fun _ hrow => nomatch hrow
  keys := fun _ hrow => nomatch hrow
  siblings := fun _ hrow => nomatch hrow
  count := Nat.zero_le _

variable {folders : List (FolderRow Id)}

theorem FolderForest.exists_path (h : FolderForest folders) {parentId : Option Id}
    (hparent : forall id, parentId = some id -> id ∈ folders.map FolderRow.id) :
    exists path, FolderPath folders parentId path ∧ path.length ≤ FOLDER_DEPTH_LIMIT := by
  cases parentId with
  | none => exact ⟨[], rfl, Nat.zero_le _⟩
  | some id =>
      rcases List.mem_map.mp (hparent id rfl) with ⟨row, hmem, rfl⟩
      exact h.paths row hmem

theorem folderPath_cons {row : FolderRow Id} {path : List (FolderRow Id)} (hmem : row ∈ folders)
    (h : FolderPath folders row.parentId path) :
    FolderPath folders (some row.id) (row :: path) := by
  cases hparent : row.parentId with
  | none =>
      rw [hparent] at h
      rw [show path = [] from h]
      exact ParentChain.root hmem hparent
  | some parentId =>
      rw [hparent] at h
      exact ParentChain.child hmem hparent h

theorem FolderPath.mono {others : List (FolderRow Id)}
    (hsub : forall row, row ∈ folders -> row ∈ others) {folderId : Option Id}
    {path : List (FolderRow Id)} (h : FolderPath folders folderId path) :
    FolderPath others folderId path := by
  cases folderId with
  | none => exact h
  | some id => exact ParentChain.mono hsub h

theorem FolderForest.parent_stored (h : FolderForest folders) {row : FolderRow Id}
    (hmem : row ∈ folders) {parentId : Id} (hparent : row.parentId = some parentId) :
    exists parent, parent ∈ folders ∧ parent.id = parentId := by
  rcases h.paths row hmem with ⟨path, hpath, _⟩
  rcases exists_of_folderPath hpath with ⟨found, rest, _, hfound, hid, hrest⟩
  rw [eq_of_key_eq h.ids hfound hmem hid, hparent] at hrest
  rcases exists_of_folderPath hrest with ⟨parent, _, _, hstored, hkey, _⟩
  exact ⟨parent, hstored, hkey⟩

theorem FolderForest.acyclic (h : FolderForest folders) (id : Id) :
    ¬ Relation.TransGen (fun lower upper => exists row, row ∈ folders ∧ row.id = lower ∧
      row.parentId = some upper) id id := by
  apply not_transGen_self h.ids
  intro row hmem
  rcases h.paths row hmem with ⟨path, hpath, _⟩
  exact ⟨path, hpath⟩

/-!
## A new folder
-/

theorem FolderForest.insert (h : FolderForest folders) {row : FolderRow Id}
    {path : List (FolderRow Id)} (hfresh : row.id ∉ folders.map FolderRow.id)
    (hpath : FolderPath folders row.parentId path) (hlimit : path.length + 1 ≤ FOLDER_DEPTH_LIMIT)
    (hkey : row.nameKey = nameKey row.name)
    (hfree : forall other, other ∈ folders -> other.parentId = row.parentId ->
      other.nameKey ≠ row.nameKey)
    (hroom : folders.length < FOLDER_LIMIT) : FolderForest (folders ++ [row]) := by
  have hsub : forall other, other ∈ folders -> other ∈ folders ++ [row] :=
    fun _ hother => List.mem_append_left _ hother
  constructor
  · rw [List.map_append, List.nodup_append]
    refine ⟨h.ids, List.nodup_singleton _, ?_⟩
    intro id hid other hother hsame
    rw [List.map_singleton, List.mem_singleton] at hother
    rw [hsame, hother] at hid
    exact hfresh hid
  · intro other hother
    rcases List.mem_append.mp hother with hold | hnew
    · rcases h.paths other hold with ⟨otherPath, hotherPath, hotherLimit⟩
      exact ⟨otherPath, FolderPath.mono hsub hotherPath, hotherLimit⟩
    · rw [List.mem_singleton.mp hnew]
      refine ⟨row :: path, ?_, hlimit⟩
      exact folderPath_cons (List.mem_append_right _ (List.mem_singleton_self row))
        (FolderPath.mono hsub hpath)
  · intro other hother
    rcases List.mem_append.mp hother with hold | hnew
    · exact h.keys other hold
    · rw [List.mem_singleton.mp hnew]
      exact hkey
  · intro first hfirst second hsecond hparent hname
    rcases List.mem_append.mp hfirst with hfirstOld | hfirstNew
    · rcases List.mem_append.mp hsecond with hsecondOld | hsecondNew
      · exact h.siblings first hfirstOld second hsecondOld hparent hname
      · rw [List.mem_singleton.mp hsecondNew] at hparent hname
        exact absurd hname (hfree first hfirstOld hparent)
    · rw [List.mem_singleton.mp hfirstNew] at hparent hname ⊢
      rcases List.mem_append.mp hsecond with hsecondOld | hsecondNew
      · exact absurd hname.symm (hfree second hsecondOld hparent.symm)
      · rw [List.mem_singleton.mp hsecondNew]
  · rw [List.length_append, List.length_singleton]
    exact hroom

/-!
## A removed folder
-/

theorem FolderForest.remove [DecidableEq Id] (h : FolderForest folders) {folderId : Id}
    (hchildless : forall row, row ∈ folders -> row.parentId ≠ some folderId) :
    FolderForest (folders.filter fun folder => folder.id != folderId) := by
  have hsub : forall row, row ∈ folders.filter (fun folder => folder.id != folderId) ->
      row ∈ folders ∧ row.id ≠ folderId := by
    intro row hrow
    simpa using hrow
  constructor
  · exact h.ids.sublist (List.filter_sublist.map _)
  · intro row hrow
    rcases hsub row hrow with ⟨hmem, hother⟩
    rcases h.paths row hmem with ⟨path, hpath, hlimit⟩
    refine ⟨path, ?_, hlimit⟩
    apply ParentChain.of_avoids (m := folderId) _ hpath
    · exact ParentChain.avoids_childless hother hchildless hpath
    · intro ancestor hancestor hne
      simpa using ⟨hancestor, hne⟩
  · exact fun row hrow => h.keys row (hsub row hrow).left
  · exact fun row hrow other hother =>
      h.siblings row (hsub row hrow).left other (hsub other hother).left
  · exact Nat.le_trans (List.length_filter_le _ _) h.count

/-!
## A changed folder
-/

section

variable [DecidableEq Id] {current row : FolderRow Id}

def replaceRow (row folder : FolderRow Id) : FolderRow Id :=
  if folder.id = row.id then row else folder

theorem replaceRow_of_eq {folder : FolderRow Id} (h : folder.id = row.id) :
    replaceRow row folder = row :=
  if_pos h

theorem replaceRow_of_ne {folder : FolderRow Id} (h : folder.id ≠ row.id) :
    replaceRow row folder = folder :=
  if_neg h

theorem replaceRow_id (folder : FolderRow Id) : (replaceRow row folder).id = folder.id := by
  by_cases h : folder.id = row.id
  · rw [replaceRow_of_eq h, h]
  · rw [replaceRow_of_ne h]

theorem map_replaceRow_ids :
    (folders.map (replaceRow row)).map FolderRow.id = folders.map FolderRow.id := by
  rw [List.map_map]
  exact List.map_congr_left fun folder _ => replaceRow_id folder

theorem mem_map_replaceRow (hcurrent : current ∈ folders)
    (hid : current.id = row.id) {folder : FolderRow Id} :
    folder ∈ folders.map (replaceRow row) ↔
      folder = row ∨ (folder ∈ folders ∧ folder.id ≠ row.id) := by
  rw [List.mem_map]
  constructor
  · intro hmem
    rcases hmem with ⟨old, hold, rfl⟩
    by_cases hsame : old.id = row.id
    · exact Or.inl (replaceRow_of_eq hsame)
    · rw [replaceRow_of_ne hsame]
      exact Or.inr ⟨hold, hsame⟩
  · intro hmem
    rcases hmem with rfl | ⟨hold, hother⟩
    · exact ⟨current, hcurrent, replaceRow_of_eq hid⟩
    · exact ⟨folder, hold, replaceRow_of_ne hother⟩

theorem FolderForest.replace (h : FolderForest folders) (hcurrent : current ∈ folders)
    (hid : current.id = row.id) (hkey : row.nameKey = nameKey row.name)
    (hfree : forall other, other ∈ folders -> other.parentId = row.parentId ->
      other.id ≠ row.id -> other.nameKey ≠ row.nameKey)
    (hpaths : forall folder, folder ∈ folders -> exists path,
      FolderPath (folders.map (replaceRow row)) (some folder.id) path ∧
        path.length ≤ FOLDER_DEPTH_LIMIT) :
    FolderForest (folders.map (replaceRow row)) := by
  have hmem := fun folder => @mem_map_replaceRow _ _ _ _ row hcurrent hid folder
  constructor
  · rw [map_replaceRow_ids]
    exact h.ids
  · intro folder hfolder
    rcases List.mem_map.mp hfolder with ⟨old, hold, rfl⟩
    rw [replaceRow_id]
    exact hpaths old hold
  · intro folder hfolder
    rcases (hmem folder).mp hfolder with rfl | ⟨hold, _⟩
    · exact hkey
    · exact h.keys folder hold
  · intro first hfirst second hsecond hparent hname
    rcases (hmem first).mp hfirst with rfl | ⟨hfirstOld, hfirstOther⟩
    · rcases (hmem second).mp hsecond with rfl | ⟨hsecondOld, hsecondOther⟩
      · rfl
      · exact absurd hname.symm (hfree second hsecondOld hparent.symm hsecondOther)
    · rcases (hmem second).mp hsecond with rfl | ⟨hsecondOld, _⟩
      · exact absurd hname (hfree first hfirstOld hparent hfirstOther)
      · exact h.siblings first hfirstOld second hsecondOld hparent hname
  · rw [List.length_map]
    exact h.count

theorem FolderForest.rename (h : FolderForest folders) (hcurrent : current ∈ folders)
    (hid : current.id = row.id) (hparent : current.parentId = row.parentId)
    (hkey : row.nameKey = nameKey row.name)
    (hfree : forall other, other ∈ folders -> other.parentId = row.parentId ->
      other.id ≠ row.id -> other.nameKey ≠ row.nameKey) :
    FolderForest (folders.map (replaceRow row)) := by
  apply h.replace hcurrent hid hkey hfree
  intro folder hfolder
  rcases h.paths folder hfolder with ⟨path, hpath, hlimit⟩
  refine ⟨path.map (replaceRow row), ?_, by rwa [List.length_map]⟩
  refine ParentChain.map (fun other _ => replaceRow_id other) ?_ hpath
  intro other hother
  by_cases hsame : other.id = row.id
  · rw [replaceRow_of_eq hsame, ← hparent,
      eq_of_key_eq h.ids hother hcurrent (hsame.trans hid.symm)]
  · rw [replaceRow_of_ne hsame]

/-- A folder moves with everything under it, to a parent that is not under it. -/
theorem FolderForest.move (h : FolderForest folders) (hcurrent : current ∈ folders)
    (hid : current.id = row.id) (hkey : row.nameKey = nameKey row.name)
    (hfree : forall other, other ∈ folders -> other.parentId = row.parentId ->
      other.id ≠ row.id -> other.nameKey ≠ row.nameKey)
    {path : List (FolderRow Id)} (hpath : FolderPath folders row.parentId path)
    (houtside : row.id ∉ path.map FolderRow.id)
    (hheight : forall folder steps, folder ∈ folders -> IsUnder folders folder.id row.id steps ->
      steps + 1 + path.length ≤ FOLDER_DEPTH_LIMIT) :
    FolderForest (folders.map (replaceRow row)) := by
  apply h.replace hcurrent hid hkey hfree
  have hsub : forall other, other ∈ folders -> other.id ≠ row.id ->
      other ∈ folders.map (replaceRow row) := by
    intro other hother hne
    exact (mem_map_replaceRow hcurrent hid).mpr (Or.inr ⟨hother, hne⟩)
  have hnew : row ∈ folders.map (replaceRow row) :=
    (mem_map_replaceRow hcurrent hid).mpr (Or.inl rfl)
  have hparentPath : FolderPath (folders.map (replaceRow row)) row.parentId path := by
    generalize row.parentId = parentId at hpath
    cases parentId with
    | none => exact hpath
    | some id => exact ParentChain.of_avoids hsub hpath houtside
  have hmoved := folderPath_cons hnew hparentPath
  intro folder hfolder
  rcases h.paths folder hfolder with ⟨old, hold, hlimit⟩
  by_cases hover : row.id ∈ old.map FolderRow.id
  · rcases ParentChain.of_changed hsub hmoved hold hover with
      ⟨before, found, after, rfl, hfound, hchain⟩
    refine ⟨_, hchain, ?_⟩
    have hsteps := ParentChain.steps hold
    rw [hfound] at hsteps
    have hfits := hheight folder before.length hfolder hsteps
    rw [List.length_append, List.length_cons]
    omega
  · exact ⟨old, ParentChain.of_avoids hsub hold hover, hlimit⟩

end

end

end Folders
end Pertexo
