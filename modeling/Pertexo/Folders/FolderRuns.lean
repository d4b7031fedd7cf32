import Pertexo.Folders.FolderForest
import Pertexo.Library.Runs

/-!
# Runs of folder commands

## What the checks say
-/

namespace Pertexo
namespace Folders

open Library

section

variable {Id : Type} [DecidableEq Id] {folders : List (FolderRow Id)}

theorem mem_of_readFolder {folderId : Id} {row : FolderRow Id}
    (h : readFolder folders folderId = .ok row) : row ∈ folders ∧ row.id = folderId := by
  rw [readFolder] at h
  split at h
  · cases h
  · next found hfound =>
    cases h
    exact ⟨List.mem_of_find?_eq_some hfound, by simpa using List.find?_some hfound⟩

theorem stored_of_readParent {parentId : Option Id} (h : readParent folders parentId = .ok ()) :
    forall id, parentId = some id -> id ∈ folders.map FolderRow.id := by
  rintro id rfl
  rw [readParent] at h
  rcases exists_of_map_eq_ok h with ⟨row, hrow, _⟩
  rcases mem_of_readFolder hrow with ⟨hmem, rfl⟩
  exact List.mem_map_of_mem hmem

theorem free_of_requireFreeName {parentId folderId : Option Id} {name : String}
    (h : requireFreeName folders parentId name folderId = .ok ()) :
    forall other, other ∈ folders -> other.parentId = parentId -> some other.id ≠ folderId ->
      other.nameKey ≠ nameKey name := by
  intro other hmem hparent hother hname
  rw [requireFreeName] at h
  split at h
  · cases h
  · next hnone =>
    simp only [bne_iff_ne, ne_eq, not_not, List.length_eq_zero_iff] at hnone
    rw [List.filter_eq_nil_iff] at hnone
    apply hnone other hmem
    simp [hparent, hother, hname]

theorem updateRow_eq_ok {host : FolderHost Id} {row : FolderRow Id} {changed : List (FolderRow Id)}
    (h : updateRow host folders row = .ok changed) : changed = folders.map (replaceRow row) := by
  rcases exists_of_bind_eq_ok h with ⟨_, _, hchanged⟩
  cases hchanged
  rfl

/-!
## Hierarchy

The subtree query sees the whole subtree of a folder in a forest, although it is cut
off at the depth limit.
-/

def BreaksHierarchy (folders : List (FolderRow Id)) (folderId : Id) (parentId : Option Id) : Prop :=
  (exists newParent steps, parentId = some newParent ∧ IsUnder folders newParent folderId steps) ∨
    exists depth folder steps, folderDepth folders parentId = .ok depth ∧
      IsUnder folders folder folderId steps ∧ steps + 1 + depth > FOLDER_DEPTH_LIMIT

omit [DecidableEq Id] in
theorem IsUnder.steps_lt (h : FolderForest folders) {id folderId : Id} {steps : Nat}
    (hunder : IsUnder folders id folderId steps) : steps < FOLDER_DEPTH_LIMIT := by
  have hstored : exists row, row ∈ folders ∧ row.id = id := by
    have hsteps : ParentSteps folders FolderRow.id FolderRow.parentId id folderId steps := hunder
    cases hsteps with
    | here hmem => exact ⟨_, hmem, rfl⟩
    | up hmem _ _ => exact ⟨_, hmem, rfl⟩
  rcases hstored with ⟨row, hmem, rfl⟩
  rcases h.paths row hmem with ⟨path, hpath, hlimit⟩
  rcases ParentSteps.exists_rest h.ids hunder hpath with ⟨before, rest, rfl, rfl, hrest⟩
  have hpos := hrest.length_pos
  rw [List.length_append] at hlimit
  omega

theorem mem_descendantRows_iff (h : FolderForest folders) {folderId id : Id} {height : Nat} :
    (id, height) ∈ descendantRows folders folderId ↔
      exists steps, height = steps + 1 ∧ IsUnder folders id folderId steps := by
  rw [mem_descendantRows]
  constructor
  · intro hmem
    rcases hmem with ⟨steps, _, hrow, hunder⟩
    exact ⟨steps, congrArg Prod.snd hrow, hunder⟩
  · intro hmem
    rcases hmem with ⟨steps, rfl, hunder⟩
    exact ⟨steps, Nat.le_of_lt (hunder.steps_lt h), rfl, hunder⟩

theorem readSubtree_cycle (h : FolderForest folders) {folderId : Id} {parentId : Option Id} :
    (readSubtree folders folderId parentId).cycle = true ↔
      exists newParent steps, parentId = some newParent ∧
        IsUnder folders newParent folderId steps := by
  show (descendantRows folders folderId).any (fun row => some row.fst == parentId) = true ↔ _
  rw [List.any_eq_true]
  constructor
  · intro hany
    rcases hany with ⟨⟨id, height⟩, hmem, hsame⟩
    rcases (mem_descendantRows_iff h).mp hmem with ⟨steps, _, hunder⟩
    exact ⟨id, steps, (beq_iff_eq.mp hsame).symm, hunder⟩
  · intro hunder
    rcases hunder with ⟨id, steps, rfl, hsteps⟩
    exact ⟨(id, steps + 1), (mem_descendantRows_iff h).mpr ⟨steps, rfl, hsteps⟩, beq_self_eq_true _⟩

theorem readSubtree_height (h : FolderForest folders) {folderId : Id} {parentId : Option Id}
    (hstored : exists row, row ∈ folders ∧ row.id = folderId) :
    (exists folder steps, IsUnder folders folder folderId steps ∧
        (readSubtree folders folderId parentId).height = steps + 1) ∧
      forall folder steps, IsUnder folders folder folderId steps ->
        steps + 1 ≤ (readSubtree folders folderId parentId).height := by
  rcases hstored with ⟨row, hmem, rfl⟩
  have hself : (row.id, 1) ∈ descendantRows folders row.id :=
    (mem_descendantRows_iff h).mpr ⟨0, rfl, ParentSteps.here hmem⟩
  cases hmax : ((descendantRows folders row.id).map Prod.snd).max? with
  | none =>
      rw [List.max?_eq_none_iff, List.map_eq_nil_iff] at hmax
      rw [hmax] at hself
      cases hself
  | some height =>
      have hheight : (readSubtree folders row.id parentId).height = height := by
        show (((descendantRows folders row.id).map Prod.snd).max?).getD 0 = height
        rw [hmax]
        rfl
      rw [hheight]
      rcases List.max?_eq_some_iff.mp hmax with ⟨hattained, hbound⟩
      constructor
      · rcases List.mem_map.mp hattained with ⟨⟨folder, _⟩, hfolder, rfl⟩
        rcases (mem_descendantRows_iff h).mp hfolder with ⟨steps, hsteps, hunder⟩
        exact ⟨folder, steps, hunder, hsteps⟩
      · intro folder steps hunder
        apply hbound
        exact List.mem_map.mpr ⟨(folder, steps + 1),
          (mem_descendantRows_iff h).mpr ⟨steps, rfl, hunder⟩, rfl⟩

theorem requireDepth_eq (depth : Nat) :
    requireDepth depth = .ok () ∧ depth ≤ FOLDER_DEPTH_LIMIT ∨
      requireDepth depth = .error (.conflict .hierarchy) ∧ FOLDER_DEPTH_LIMIT < depth := by
  rw [requireDepth]
  split
  · next hdeep => exact Or.inr ⟨rfl, hdeep⟩
  · next hfits => exact Or.inl ⟨rfl, Nat.not_lt.mp hfits⟩

/-- The check of a move decides whether the hierarchy would break. -/
theorem requireHierarchy_spec (h : FolderForest folders) {folderId : Id} {parentId : Option Id}
    (hstored : exists row, row ∈ folders ∧ row.id = folderId)
    (hparent : forall id, parentId = some id -> id ∈ folders.map FolderRow.id) :
    requireHierarchy folders folderId parentId = .ok () ∧
        ¬ BreaksHierarchy folders folderId parentId ∨
      requireHierarchy folders folderId parentId = .error (.conflict .hierarchy) ∧
        BreaksHierarchy folders folderId parentId := by
  rcases h.exists_path hparent with ⟨path, hpath, hlimit⟩
  have hdepth := folderDepth_of_path h.ids hpath hlimit
  have hcycle := @readSubtree_cycle _ _ _ h folderId parentId
  rcases @readSubtree_height _ _ _ h folderId parentId hstored with ⟨hattained, hbound⟩
  rw [requireHierarchy]
  by_cases hunder : (readSubtree folders folderId parentId).cycle = true
  · rw [if_pos hunder]
    exact Or.inr ⟨rfl, Or.inl (hcycle.mp hunder)⟩
  · rw [if_neg hunder, hdepth]
    dsimp only [bind, Except.bind]
    rcases requireDepth_eq ((readSubtree folders folderId parentId).height + path.length) with
      ⟨hok, hfits⟩ | ⟨herror, hdeep⟩
    · refine Or.inl ⟨hok, ?_⟩
      rintro (hinside | ⟨depth, folder, steps, hsame, hsteps, hdeep⟩)
      · exact hunder (hcycle.mpr hinside)
      · rw [hdepth] at hsame
        cases hsame
        have hle := hbound folder steps hsteps
        omega
    · rcases hattained with ⟨folder, steps, hsteps, hheight⟩
      rw [hheight] at hdeep
      exact Or.inr ⟨herror, Or.inr ⟨_, folder, steps, hdepth, hsteps, hdeep⟩⟩

/-!
## What the commands keep
-/

theorem createFolder_keeps {host : FolderHost Id} (h : FolderForest folders) {generatedId : Id}
    {name : String} {parentId : Option Id} {change : Change Id}
    (hcreate : createFolder host folders generatedId name parentId = .ok change) :
    FolderForest change.fst ∧ change.snd ∈ change.fst ∧
      forall row, row ∈ folders -> row ∈ change.fst := by
  rcases exists_of_bind_eq_ok hcreate with ⟨⟨⟩, hread, hcreate⟩
  rcases exists_of_bind_eq_ok hcreate with ⟨⟨⟩, hname, hcreate⟩
  rcases exists_of_bind_eq_ok hcreate with ⟨⟨⟩, hroom, hcreate⟩
  rcases exists_of_bind_eq_ok hcreate with ⟨depth, hdepth, hcreate⟩
  rcases exists_of_bind_eq_ok hcreate with ⟨⟨⟩, hfits, hcreate⟩
  rcases exists_of_bind_eq_ok hcreate with ⟨changed, hinsert, hresult⟩
  cases hresult
  rcases exists_of_bind_eq_ok hinsert with ⟨_, _, hinsert⟩
  split at hinsert
  · cases hinsert
  · next hfresh =>
    cases hinsert
    rcases h.exists_path (stored_of_readParent hread) with ⟨path, hpath, hlimit⟩
    rw [folderDepth_of_path h.ids hpath hlimit] at hdepth
    cases hdepth
    refine ⟨?_, List.mem_append_right _ (List.mem_singleton_self _),
      fun _ hrow => List.mem_append_left _ hrow⟩
    refine h.insert ?_ hpath ?_ ?_ ?_ ?_
    · intro hagain
      rcases List.mem_map.mp hagain with ⟨row, hrow, hid⟩
      exact hfresh (List.any_eq_true.mpr ⟨row, hrow, beq_iff_eq.mpr hid⟩)
    · rcases requireDepth_eq (path.length + 1) with ⟨_, hle⟩ | ⟨herror, _⟩
      · exact hle
      · rw [herror] at hfits
        cases hfits
    · rfl
    · intro other hother hparent
      exact free_of_requireFreeName hname other hother hparent (fun hsome => nomatch hsome)
    · rw [requireFolderRoom] at hroom
      split at hroom
      · cases hroom
      · next hfew => exact Nat.lt_of_not_le hfew

theorem renameFolder_keeps {host : FolderHost Id} (h : FolderForest folders) {folderId : Id}
    {name : String} {expectedFolderRevision : Nat} {change : Change Id}
    (hrename : renameFolder host folders folderId name expectedFolderRevision = .ok change) :
    FolderForest change.fst ∧ change.snd ∈ change.fst ∧
      change.fst.map FolderRow.id = folders.map FolderRow.id := by
  rcases exists_of_bind_eq_ok hrename with ⟨current, hread, hrename⟩
  rcases exists_of_bind_eq_ok hrename with ⟨⟨⟩, _, hrename⟩
  rcases exists_of_bind_eq_ok hrename with ⟨⟨⟩, hname, hrename⟩
  rcases exists_of_bind_eq_ok hrename with ⟨changed, hupdate, hresult⟩
  cases hresult
  rcases mem_of_readFolder hread with ⟨hcurrent, rfl⟩
  rw [updateRow_eq_ok hupdate]
  refine ⟨?_, (mem_map_replaceRow hcurrent (by rfl)).mpr (Or.inl rfl), map_replaceRow_ids⟩
  apply h.rename hcurrent
  · rfl
  · rfl
  · rfl
  · intro other hother hparent hne
    exact free_of_requireFreeName hname other hother hparent
      fun hsame => hne (Option.some.inj hsame)

theorem readMovedFolder_eq_ok {host : FolderHost Id} {command : FolderCommand Id} {folderId : Id}
    {parentId : Option Id} {audienceReview : Option AudienceReview} {expectedFolderRevision : Nat}
    {current : FolderRow Id}
    (h : readMovedFolder host folders command folderId parentId audienceReview
      expectedFolderRevision = .ok current) :
    (current ∈ folders ∧ current.id = folderId) ∧
      (forall id, parentId = some id -> id ∈ folders.map FolderRow.id) ∧
      forall other, other ∈ folders -> other.parentId = parentId -> other.id ≠ folderId ->
        other.nameKey ≠ nameKey current.name := by
  rcases exists_of_bind_eq_ok h with ⟨⟨⟩, hparent, h⟩
  rcases exists_of_bind_eq_ok h with ⟨⟨⟩, _, h⟩
  rcases exists_of_bind_eq_ok h with ⟨found, hread, h⟩
  rcases exists_of_bind_eq_ok h with ⟨⟨⟩, _, h⟩
  rcases exists_of_bind_eq_ok h with ⟨⟨⟩, hname, h⟩
  cases h
  refine ⟨mem_of_readFolder hread, stored_of_readParent hparent, ?_⟩
  intro other hother hsame hne
  exact free_of_requireFreeName hname other hother hsame fun hid => hne (Option.some.inj hid)

theorem moveFolder_keeps {host : FolderHost Id} (h : FolderForest folders)
    {command : FolderCommand Id} {folderId : Id} {parentId : Option Id}
    {audienceReview : Option AudienceReview} {expectedFolderRevision : Nat} {change : Change Id}
    (hmove : moveFolder host folders command folderId parentId audienceReview
      expectedFolderRevision = .ok change) :
    FolderForest change.fst ∧ change.snd ∈ change.fst ∧
      change.fst.map FolderRow.id = folders.map FolderRow.id := by
  rcases exists_of_bind_eq_ok hmove with ⟨current, hread, hmove⟩
  rcases exists_of_bind_eq_ok hmove with ⟨⟨⟩, hhierarchy, hmove⟩
  rcases exists_of_bind_eq_ok hmove with ⟨changed, hupdate, hresult⟩
  cases hresult
  rcases readMovedFolder_eq_ok hread with ⟨⟨hcurrent, rfl⟩, hparent, hfree⟩
  rw [updateRow_eq_ok hupdate]
  refine ⟨?_, (mem_map_replaceRow hcurrent (by rfl)).mpr (Or.inl rfl), map_replaceRow_ids⟩
  rcases h.exists_path hparent with ⟨path, hpath, hlimit⟩
  have hdepth := folderDepth_of_path h.ids hpath hlimit
  rcases requireHierarchy_spec h ⟨current, hcurrent, rfl⟩ hparent with
    ⟨_, hkept⟩ | ⟨herror, _⟩
  · refine h.move hcurrent rfl (h.keys current hcurrent) ?_ hpath ?_ ?_
    · intro other hother hsame hne
      show other.nameKey ≠ current.nameKey
      rw [h.keys current hcurrent]
      exact hfree other hother hsame hne
    · intro hinside
      rcases List.mem_map.mp hinside with ⟨row, hrow, hid⟩
      cases parentId with
      | none =>
          rw [show path = [] from hpath] at hrow
          cases hrow
      | some newParent =>
          have hchain : ParentChain folders FolderRow.id FolderRow.parentId newParent path := hpath
          rcases List.append_of_mem hrow with ⟨before, after, rfl⟩
          have hsteps := hchain.steps
          rw [hid] at hsteps
          exact hkept (Or.inl ⟨newParent, before.length, rfl, hsteps⟩)
    · intro folder steps _ hunder
      rw [← Nat.not_lt]
      intro hdeep
      exact hkept (Or.inr ⟨path.length, folder.id, steps, hdepth, hunder, hdeep⟩)
  · rw [herror] at hhierarchy
    cases hhierarchy

/-!
## Invariant
-/

structure WorkspaceFolders (state : FolderState Id) : Prop where
  forest : FolderForest state.folders
  placedIn : forall placement, placement ∈ state.placements -> forall id,
    placement.folderId = some id -> id ∈ state.folders.map FolderRow.id

theorem deleteFolder_keeps {state : FolderState Id} (h : WorkspaceFolders state) {folderId : Id}
    {expectedFolderRevision : Nat}
    {changed : List (FolderRow Id)}
    (hdelete : deleteFolder state folderId expectedFolderRevision = .ok changed) :
    FolderForest changed ∧ forall placement, placement ∈ state.placements -> forall id,
      placement.folderId = some id -> id ∈ changed.map FolderRow.id := by
  rcases exists_of_bind_eq_ok hdelete with ⟨_, _, hdelete⟩
  rcases exists_of_bind_eq_ok hdelete with ⟨⟨⟩, _, hdelete⟩
  rcases exists_of_bind_eq_ok hdelete with ⟨⟨⟩, hunused, hresult⟩
  cases hresult
  rw [requireUnused] at hunused
  split at hunused
  · cases hunused
  · next hempty =>
    rw [Bool.or_eq_true, not_or, Bool.not_eq_true, Bool.not_eq_true, List.any_eq_false,
      List.any_eq_false] at hempty
    constructor
    · apply h.forest.remove
      intro row hrow hparent
      exact hempty.left row hrow (beq_iff_eq.mpr hparent)
    · intro placement hplacement id hid
      rcases List.mem_map.mp (h.placedIn placement hplacement id hid) with ⟨row, hrow, rfl⟩
      refine List.mem_map_of_mem (List.mem_filter.mpr ⟨hrow, ?_⟩)
      rw [bne_iff_ne]
      rintro rfl
      exact hempty.right placement hplacement (beq_iff_eq.mpr hid)

theorem folderChange_eq_ok {change : Except FolderError (Change Id)}
    {after : List (FolderRow Id)} {result : FolderResult Id}
    (h : folderChange change = .ok (after, result)) :
    exists row, change = .ok (after, row) := by
  rcases exists_of_bind_eq_ok h with ⟨⟨folders, row⟩, hchange, h⟩
  rcases exists_of_bind_eq_ok h with ⟨record, _, h⟩
  cases h
  exact ⟨row, hchange⟩

theorem apply_keeps {host : FolderHost Id} {state : FolderState Id} (h : WorkspaceFolders state)
    {command : FolderCommand Id} {after : List (FolderRow Id)} {result : FolderResult Id}
    (happly : apply host state command = .ok (after, result)) :
    FolderForest after ∧ forall placement, placement ∈ state.placements -> forall id,
      placement.folderId = some id -> id ∈ after.map FolderRow.id := by
  rw [apply] at happly
  cases hrequest : command.request with
  | create name parentId =>
      rw [hrequest] at happly
      rcases folderChange_eq_ok happly with ⟨row, hcreate⟩
      rcases createFolder_keeps h.forest hcreate with ⟨hforest, _, hkept⟩
      refine ⟨hforest, ?_⟩
      intro placement hplacement id hid
      rcases List.mem_map.mp (h.placedIn placement hplacement id hid) with ⟨stored, hstored, rfl⟩
      exact List.mem_map_of_mem (hkept stored hstored)
  | rename folderId name expectedFolderRevision =>
      rw [hrequest] at happly
      rcases folderChange_eq_ok happly with ⟨row, hrename⟩
      rcases renameFolder_keeps h.forest hrename with ⟨hforest, _, hids⟩
      refine ⟨hforest, ?_⟩
      rw [hids]
      exact h.placedIn
  | move folderId parentId audienceReview expectedFolderRevision =>
      rw [hrequest] at happly
      rcases folderChange_eq_ok happly with ⟨row, hmove⟩
      rcases moveFolder_keeps h.forest hmove with ⟨hforest, _, hids⟩
      refine ⟨hforest, ?_⟩
      rw [hids]
      exact h.placedIn
  | delete folderId expectedFolderRevision =>
      rw [hrequest] at happly
      rcases exists_of_bind_eq_ok happly with ⟨changed, hdelete, hresult⟩
      cases hresult
      exact deleteFolder_keeps h hdelete

theorem afterCommand_keeps (host : FolderHost Id) {state : FolderState Id}
    (h : WorkspaceFolders state) (command : FolderCommand Id) :
    WorkspaceFolders (afterCommand host state command) := by
  rw [afterCommand]
  split
  · next after answer hrun =>
    rcases exists_of_bind_eq_ok hrun with ⟨_, _, hrun⟩
    rcases exists_of_bind_eq_ok hrun with ⟨claimed, _, hrun⟩
    cases claimed with
    | some result =>
        cases hrun
        exact h
    | none =>
        rcases exists_of_bind_eq_ok hrun with ⟨⟨folders, result⟩, happly, hrun⟩
        cases hrun
        rcases apply_keeps h happly with ⟨hforest, hplaced⟩
        exact ⟨hforest, hplaced⟩
  · exact h

end

end Folders
end Pertexo
