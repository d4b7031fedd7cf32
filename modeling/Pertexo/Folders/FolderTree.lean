import Pertexo.Folders.FolderRuns

/-!
# The folder tree over time

## Refusals for hierarchy
-/

namespace Pertexo
namespace Folders

open Library

section

variable {Id : Type} [DecidableEq Id]

theorem readFolder_ne_hierarchy {folders : List (FolderRow Id)} {folderId : Id} :
    readFolder folders folderId ≠ .error (.conflict .hierarchy) := by
  intro h
  rw [readFolder] at h
  split at h
  · cases h
  · cases h

theorem readParent_ne_hierarchy {folders : List (FolderRow Id)} {parentId : Option Id} :
    readParent folders parentId ≠ .error (.conflict .hierarchy) := by
  intro h
  cases parentId with
  | none => cases h
  | some id =>
      rw [readParent] at h
      cases hread : readFolder folders id with
      | ok row =>
          rw [hread] at h
          cases h
      | error e =>
          rw [hread] at h
          cases h
          exact readFolder_ne_hierarchy hread

omit [DecidableEq Id] in
theorem requireMoveAudienceReview_ne_hierarchy {host : FolderHost Id}
    {folders : List (FolderRow Id)} {command : FolderCommand Id} {folderId : Id}
    {parentId : Option Id} {audienceReview : Option AudienceReview} :
    requireMoveAudienceReview host folders command folderId parentId audienceReview ≠
      .error (.conflict .hierarchy) := by
  intro h
  rw [requireMoveAudienceReview] at h
  split at h
  · cases h
  · cases h
  · cases h
  · cases h

theorem readMovedFolder_ne_hierarchy {host : FolderHost Id} {folders : List (FolderRow Id)}
    {command : FolderCommand Id} {folderId : Id} {parentId : Option Id}
    {audienceReview : Option AudienceReview} {expectedFolderRevision : Nat} :
    readMovedFolder host folders command folderId parentId audienceReview expectedFolderRevision ≠
      .error (.conflict .hierarchy) := by
  intro h
  rcases bind_eq_error_iff.mp h with hparent | ⟨_, _, h⟩
  · exact readParent_ne_hierarchy hparent
  rcases bind_eq_error_iff.mp h with hreview | ⟨_, _, h⟩
  · exact requireMoveAudienceReview_ne_hierarchy hreview
  rcases bind_eq_error_iff.mp h with hread | ⟨_, _, h⟩
  · exact readFolder_ne_hierarchy hread
  rcases bind_eq_error_iff.mp h with hrevision | ⟨_, _, h⟩
  · rw [requireRevision] at hrevision
    split at hrevision
    · cases hrevision
    · cases hrevision
  rcases bind_eq_error_iff.mp h with hname | ⟨_, _, h⟩
  · rw [requireFreeName] at hname
    split at hname
    · cases hname
    · cases hname
  cases h

theorem updateRow_ne_hierarchy {host : FolderHost Id} {folders : List (FolderRow Id)}
    {row : FolderRow Id} : updateRow host folders row ≠ .error (.conflict .hierarchy) := by
  intro h
  rcases bind_eq_error_iff.mp h with hstorable | ⟨_, _, h⟩
  · rw [storable] at hstorable
    split at hstorable
    · cases hstorable
    · cases hstorable
  · cases h

theorem folderRecord_of_forest {folders : List (FolderRow Id)} (h : FolderForest folders)
    {row : FolderRow Id} (hmem : row ∈ folders) :
    exists record, folderRecord folders row = .ok record := by
  rcases h.paths row hmem with ⟨path, hpath, hlimit⟩
  rw [folderRecord, folderDepth_of_path h.ids hpath hlimit]
  exact ⟨_, rfl⟩

theorem moveFolder_hierarchy_iff {host : FolderHost Id} {folders : List (FolderRow Id)}
    (h : FolderForest folders) {command : FolderCommand Id} {folderId : Id}
    {parentId : Option Id} {audienceReview : Option AudienceReview}
    {expectedFolderRevision : Nat} :
    folderChange (moveFolder host folders command folderId parentId audienceReview
        expectedFolderRevision) = .error (.conflict .hierarchy) ↔
      (exists current, readMovedFolder host folders command folderId parentId audienceReview
        expectedFolderRevision = .ok current) ∧ BreaksHierarchy folders folderId parentId := by
  constructor
  · intro hrefused
    rcases bind_eq_error_iff.mp hrefused with hmove | ⟨change, hmove, hrecord⟩
    · rcases bind_eq_error_iff.mp hmove with hread | ⟨current, hread, hmove⟩
      · exact absurd hread readMovedFolder_ne_hierarchy
      · rcases readMovedFolder_eq_ok hread with ⟨hcurrent, hparent, _⟩
        rcases bind_eq_error_iff.mp hmove with hhierarchy | ⟨_, _, hmove⟩
        · rcases requireHierarchy_spec h ⟨current, hcurrent⟩ hparent with
            ⟨hok, _⟩ | ⟨_, hbreaks⟩
          · rw [hok] at hhierarchy
            cases hhierarchy
          · exact ⟨⟨current, hread⟩, hbreaks⟩
        · rcases bind_eq_error_iff.mp hmove with hupdate | ⟨_, _, hmove⟩
          · exact absurd hupdate updateRow_ne_hierarchy
          · cases hmove
    · rcases moveFolder_keeps h hmove with ⟨hforest, hmem, _⟩
      rcases folderRecord_of_forest hforest hmem with ⟨record, hok⟩
      rcases change with ⟨changed, row⟩
      dsimp only at hok hrecord
      rw [hok] at hrecord
      cases hrecord
  · rintro ⟨⟨current, hread⟩, hbreaks⟩
    rcases readMovedFolder_eq_ok hread with ⟨hcurrent, hparent, _⟩
    rcases requireHierarchy_spec h ⟨current, hcurrent⟩ hparent with ⟨_, hkept⟩ | ⟨herror, _⟩
    · exact absurd hbreaks hkept
    · apply bind_eq_error_iff.mpr
      left
      apply bind_eq_error_iff.mpr
      right
      refine ⟨current, hread, ?_⟩
      rw [herror]
      rfl

/-- A move reaches its subtree check: the actor has authority, the key is new, and the
checks before it pass. -/
def MoveAdmitted (host : FolderHost Id) (state : FolderState Id) (command : FolderCommand Id)
    (folderId : Id) (parentId : Option Id) (audienceReview : Option AudienceReview)
    (expectedFolderRevision : Nat) : Prop :=
  requireAuthority command = .ok () ∧ claimCommand host state command = .ok none ∧
    exists current, readMovedFolder host state.folders command folderId parentId audienceReview
      expectedFolderRevision = .ok current

theorem runOrganizationCommand_hierarchy_iff {host : FolderHost Id} {state : FolderState Id}
    (h : WorkspaceFolders state) {command : FolderCommand Id} {folderId : Id}
    {parentId : Option Id} {audienceReview : Option AudienceReview} {expectedFolderRevision : Nat}
    (hrequest : command.request =
      .move folderId parentId audienceReview expectedFolderRevision) :
    runOrganizationCommand host state command = .error (.conflict .hierarchy) ↔
      MoveAdmitted host state command folderId parentId audienceReview expectedFolderRevision ∧
        BreaksHierarchy state.folders folderId parentId := by
  have happly : apply host state command = folderChange (moveFolder host state.folders command
      folderId parentId audienceReview expectedFolderRevision) := by
    rw [apply, hrequest]
  have hmove := @moveFolder_hierarchy_iff _ _ host _ h.forest command folderId parentId
    audienceReview expectedFolderRevision
  rw [← happly] at hmove
  constructor
  · intro hrun
    rcases bind_eq_error_iff.mp hrun with hauthority | ⟨⟨⟩, hauthority, hrun⟩
    · rw [requireAuthority] at hauthority
      split at hauthority
      · cases hauthority
      · cases hauthority
    rcases bind_eq_error_iff.mp hrun with hclaim | ⟨claimed, hclaim, hrun⟩
    · rw [claimCommand] at hclaim
      split at hclaim
      · cases hclaim
      · split at hclaim
        · cases hclaim
        · split at hclaim
          · cases hclaim
          · cases hclaim
    cases claimed with
    | some result => cases hrun
    | none =>
        rcases bind_eq_error_iff.mp hrun with hrefused | ⟨_, _, hrun⟩
        · rcases hmove.mp hrefused with ⟨hread, hbreaks⟩
          exact ⟨⟨hauthority, hclaim, hread⟩, hbreaks⟩
        · cases hrun
  · rintro ⟨⟨hauthority, hclaim, hread⟩, hbreaks⟩
    apply bind_eq_error_iff.mpr
    refine Or.inr ⟨(), hauthority, ?_⟩
    apply bind_eq_error_iff.mpr
    refine Or.inr ⟨none, hclaim, ?_⟩
    apply bind_eq_error_iff.mpr
    exact Or.inl (hmove.mpr ⟨hread, hbreaks⟩)

/-!
## Runs

Between the commands others may place workflows in the folders that are there.
-/

inductive FolderEvent (Id : Type) where
  | command (command : FolderCommand Id)
  | placements (placements : List (WorkflowPlacement Id))

inductive FolderStep (host : FolderHost Id) :
    FolderState Id -> FolderEvent Id -> FolderState Id -> Prop where
  | command (state : FolderState Id) (command : FolderCommand Id) :
      FolderStep host state (.command command) (afterCommand host state command)
  | placements (state : FolderState Id) (placements : List (WorkflowPlacement Id))
      (hplaced : forall placement, placement ∈ placements -> forall id,
        placement.folderId = some id -> id ∈ state.folders.map FolderRow.id) :
      FolderStep host state (.placements placements) { state with placements }

def NewWorkspace (state : FolderState Id) : Prop :=
  state.folders = [] ∧ forall placement, placement ∈ state.placements -> placement.folderId = none

theorem workspaceFolders_of_run {host : FolderHost Id} {events : List (FolderEvent Id)}
    {state : FolderState Id} (h : Run NewWorkspace (FolderStep host) events state) :
    WorkspaceFolders state := by
  apply h.invariant fun _ state => WorkspaceFolders state
  · rintro ⟨folders, placements, receipts⟩ ⟨hempty, hplacements⟩
    dsimp only at hempty hplacements
    subst hempty
    refine ⟨folderForest_nil, ?_⟩
    intro placement hplacement id hid
    rw [hplacements placement hplacement] at hid
    cases hid
  · intro _ before event after _ hbefore hstep
    cases hstep with
    | command command => exact afterCommand_keeps host hbefore command
    | placements placements hplaced => exact ⟨hbefore.forest, hplaced⟩

theorem run_commands {host : FolderHost Id} {events : List (FolderEvent Id)}
    {state : FolderState Id} (commands : List (FolderCommand Id))
    (h : Run NewWorkspace (FolderStep host) events state) :
    Run NewWorkspace (FolderStep host) (events ++ commands.map .command)
      (commands.foldl (afterCommand host) state) := by
  induction commands generalizing events state with
  | nil =>
      rw [List.map_nil, List.append_nil]
      exact h
  | cons command commands ih =>
      rw [List.map_cons, List.append_cons]
      exact ih (Run.step h (FolderStep.command state command))

theorem folder_tree (host : FolderHost Id) {events : List (FolderEvent Id)}
    {state : FolderState Id} (h : Run NewWorkspace (FolderStep host) events state) :
    (forall id, ¬ Relation.TransGen (fun lower upper => exists row, row ∈ state.folders ∧
        row.id = lower ∧ row.parentId = some upper) id id) ∧
      (forall row, row ∈ state.folders -> forall parentId, row.parentId = some parentId ->
        exists parent, parent ∈ state.folders ∧ parent.id = parentId) ∧
      (forall row, row ∈ state.folders -> exists path,
        FolderPath state.folders (some row.id) path ∧
          folderDepth state.folders (some row.id) = .ok path.length ∧
          path.length ≤ FOLDER_DEPTH_LIMIT) ∧
      (forall row, row ∈ state.folders -> forall other, other ∈ state.folders ->
        row.id ≠ other.id -> row.parentId = other.parentId ->
          nameKey row.name ≠ nameKey other.name) ∧
      state.folders.length ≤ FOLDER_LIMIT ∧
      (forall command e, runOrganizationCommand host state command = .error e ->
        afterCommand host state command = state) ∧
      forall command folderId parentId audienceReview expectedFolderRevision,
        command.request = .move folderId parentId audienceReview expectedFolderRevision ->
        (runOrganizationCommand host state command = .error (.conflict .hierarchy) ↔
          MoveAdmitted host state command folderId parentId audienceReview
              expectedFolderRevision ∧
            BreaksHierarchy state.folders folderId parentId) := by
  have hfolders := workspaceFolders_of_run h
  have hforest := hfolders.forest
  refine ⟨hforest.acyclic, ?_, ?_, ?_, hforest.count, ?_, ?_⟩
  · intro row hrow parentId hparent
    exact hforest.parent_stored hrow hparent
  · intro row hrow
    rcases hforest.paths row hrow with ⟨path, hpath, hlimit⟩
    exact ⟨path, hpath, folderDepth_of_path hforest.ids hpath hlimit, hlimit⟩
  · intro row hrow other hother hne hparent hname
    rw [← hforest.keys row hrow, ← hforest.keys other hother] at hname
    exact hne (hforest.siblings row hrow other hother hparent hname)
  · intro command e hrefused
    rw [afterCommand, hrefused]
  · intro command folderId parentId audienceReview expectedFolderRevision hrequest
    exact runOrganizationCommand_hierarchy_iff hfolders hrequest

end

/-!
## Nested folders
-/

def sampleHost : FolderHost Nat where
  commandScope := fun _ _ _ => ""
  keyHash := fun key => key
  requestHash := fun request => request.operation
  readable := fun _ => true
  validName := fun _ => true
  reviewMove := fun _ _ _ _ _ => .ok ()

def sampleCommand (idempotencyKey : String) (generatedId : Nat) (request : FolderRequest Nat) :
    FolderCommand Nat where
  actorId := 1
  commandCredentialId := none
  role := some .owner
  idempotencyKey
  generatedId
  request

def emptyWorkspace : FolderState Nat where
  folders := []
  placements := []
  receipts := []

def sampleCreate : FolderCommand Nat :=
  sampleCommand "create" 7 (.create "Reports" none)

def sampleFolder (id : Nat) (name : String) (parentId : Option Nat) (revision : Nat) :
    FolderRow Nat where
  id
  name
  parentId
  revision
  accessMode := .workspace
  nameKey := nameKey name

/-- Reports with Archive inside, and Drafts that is then moved into Archive. -/
def nestedCommands : List (FolderCommand Nat) :=
  [sampleCreate, sampleCommand "archive" 8 (.create "Archive" (some 7)),
    sampleCommand "drafts" 9 (.create "Drafts" none),
    sampleCommand "move drafts" 10 (.move 9 (some 8) none 1)]

def nestedWorkspace : FolderState Nat :=
  nestedCommands.foldl (afterCommand sampleHost) emptyWorkspace

theorem emptyRun : Run NewWorkspace (FolderStep sampleHost) [] emptyWorkspace :=
  Run.start ⟨rfl, fun _ hplacement => absurd hplacement (List.not_mem_nil)⟩

theorem mem_nestedWorkspace {row : FolderRow Nat} (h : row ∈ [sampleFolder 7 "Reports" none 1,
      sampleFolder 8 "Archive" (some 7) 1, sampleFolder 9 "Drafts" (some 8) 2]) :
    row ∈ nestedWorkspace.folders :=
  h

theorem nested_breaks : BreaksHierarchy nestedWorkspace.folders 7 (some 9) := by
  have hreports : sampleFolder 7 "Reports" none 1 ∈ nestedWorkspace.folders :=
    mem_nestedWorkspace (by simp)
  have harchive : sampleFolder 8 "Archive" (some 7) 1 ∈ nestedWorkspace.folders :=
    mem_nestedWorkspace (by simp)
  have hdrafts : sampleFolder 9 "Drafts" (some 8) 2 ∈ nestedWorkspace.folders :=
    mem_nestedWorkspace (by simp)
  exact Or.inl ⟨9, 2, rfl,
    ParentSteps.up hdrafts rfl (ParentSteps.up harchive rfl (ParentSteps.here hreports))⟩

/-- Drafts is three deep, and Reports cannot move to where it lies below itself. -/
theorem folder_tree_sample :
    folderDepth nestedWorkspace.folders (some 9) = .ok 3 ∧
      runOrganizationCommand sampleHost nestedWorkspace
        (sampleCommand "move reports" 10 (.move 7 (some 9) none 1)) =
          .error (.conflict .hierarchy) := by
  rcases folder_tree sampleHost (run_commands nestedCommands emptyRun) with
    ⟨_, _, hpaths, _, _, _, hmoves⟩
  constructor
  · have hdrafts : sampleFolder 9 "Drafts" (some 8) 2 ∈ nestedWorkspace.folders :=
      mem_nestedWorkspace (by simp)
    rcases hpaths _ hdrafts with ⟨path, _, hdepth, _⟩
    have hthree : folderDepth nestedWorkspace.folders (some 9) = .ok 3 := rfl
    have hlength : path.length = 3 := Except.ok.inj (hdepth.symm.trans hthree)
    rw [← hlength]
    exact hdepth
  · exact (hmoves _ 7 (some 9) none 1 rfl).mpr ⟨⟨rfl, rfl, _, rfl⟩, nested_breaks⟩

/-- A move below itself that names an old revision is refused for the revision. -/
theorem stale_move_refused :
    ¬ forall (host : FolderHost Nat) (events : List (FolderEvent Nat)) (state : FolderState Nat),
      Run NewWorkspace (FolderStep host) events state ->
      forall command folderId parentId audienceReview expectedFolderRevision,
        command.request = .move folderId parentId audienceReview expectedFolderRevision ->
        (runOrganizationCommand host state command = .error (.conflict .hierarchy) ↔
          BreaksHierarchy state.folders folderId parentId) := by
  intro hall
  have hexact := hall sampleHost _ _ (run_commands nestedCommands emptyRun)
    (sampleCommand "move reports" 10 (.move 7 (some 9) none 2)) 7 (some 9) none 2 rfl
  have hrefused : runOrganizationCommand sampleHost nestedWorkspace
      (sampleCommand "move reports" 10 (.move 7 (some 9) none 2)) =
        .error (.conflict .revision) := rfl
  cases hrefused.symm.trans (hexact.mpr nested_breaks)

end Folders
end Pertexo
