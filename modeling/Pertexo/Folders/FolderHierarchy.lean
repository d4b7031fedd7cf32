import Mathlib.Data.List.MinMax
import Pertexo.Folders.FolderPolicy
import Pertexo.Library.ParentChains
import Pertexo.Library.Results

/-!
# The folder hierarchy of a workspace

## Rows
-/

namespace Pertexo
namespace Folders

open Library

def FOLDER_DEPTH_LIMIT : Nat :=
  4

structure FolderRow (Id : Type) where
  id : Id
  name : String
  parentId : Option Id
  revision : Nat
  accessMode : AccessMode
  nameKey : String
deriving DecidableEq

structure WorkflowFolderRecord (Id : Type) where
  id : Id
  name : String
  parentId : Option Id
  revision : Nat
  accessMode : AccessMode
  depth : Nat
deriving DecidableEq

inductive WorkflowFolderConflictKind where
  | name
  | limit
  | revision
  | hierarchy
  | notEmpty
  | audienceReview
deriving DecidableEq, Repr

inductive FolderError where
  | notFound (message : String)
  | conflict (kind : WorkflowFolderConflictKind)
  | idempotencyConflict
  | failure (message : String)
deriving DecidableEq, Repr

/-- Sibling names are unique regardless of ASCII letter case. -/
def nameKey (value : String) : String :=
  String.ofList (value.toList.map Char.toLower)

section

variable {Id : Type} [DecidableEq Id]

def readFolder (folders : List (FolderRow Id)) (folderId : Id) :
    Except FolderError (FolderRow Id) :=
  match folders.find? fun folder => folder.id == folderId with
  | none => .error (.notFound "Folder is not visible")
  | some row => .ok row

/-- A parent is read only to see that it is there. -/
def readParent (folders : List (FolderRow Id)) : Option Id -> Except FolderError Unit
  | none => .ok ()
  | some parentId => (readFolder folders parentId).map fun _ => ()

def requireFreeName (folders : List (FolderRow Id)) (parentId : Option Id) (folderName : String)
    (folderId : Option Id) : Except FolderError Unit :=
  let taken := folders.filter fun folder =>
    folder.parentId == parentId && folder.nameKey == nameKey folderName &&
      some folder.id != folderId
  if taken.length != 0 then .error (.conflict .name) else .ok ()

def requireRevision (row : FolderRow Id) (expected : Nat) : Except FolderError Unit :=
  if row.revision != expected then .error (.conflict .revision) else .ok ()

/-!
## Depth

The rows of the queries carry their round, and only rows within the depth limit
are joined.
-/

def joinAncestors (folders : List (FolderRow Id)) (ancestor : Option Id × Nat) :
    List (Option Id × Nat) :=
  if ancestor.snd ≤ FOLDER_DEPTH_LIMIT then
    (folders.filter fun folder => some folder.id == ancestor.fst).map fun folder =>
      (folder.parentId, ancestor.snd + 1)
  else []

def ancestorRows (folders : List (FolderRow Id)) (folderId : Id) : List (Option Id × Nat) :=
  recursiveRows (joinAncestors folders) (FOLDER_DEPTH_LIMIT + 1)
    ((folders.filter fun folder => folder.id == folderId).map fun folder => (folder.parentId, 1))

/-- How many folders deep a folder sits; a top-level folder is 1. -/
def folderDepth (folders : List (FolderRow Id)) : Option Id -> Except FolderError Nat
  | none => .ok 0
  | some folderId =>
      let ancestors := ancestorRows folders folderId
      match (ancestors.map Prod.snd).max? with
      | none => .error (.conflict .hierarchy)
      | some depth =>
          if !(ancestors.any fun row => row.fst.isNone) || depth > FOLDER_DEPTH_LIMIT then
            .error (.conflict .hierarchy)
          else .ok depth

def folderRecord (folders : List (FolderRow Id)) (row : FolderRow Id) :
    Except FolderError (WorkflowFolderRecord Id) := do
  let depth <- folderDepth folders (some row.id)
  return {
    id := row.id
    name := row.name
    parentId := row.parentId
    revision := row.revision
    accessMode := row.accessMode
    depth }

/-!
## Subtrees
-/

def joinDescendants (folders : List (FolderRow Id)) (descendant : Id × Nat) : List (Id × Nat) :=
  if descendant.snd ≤ FOLDER_DEPTH_LIMIT then
    (folders.filter fun folder => folder.parentId == some descendant.fst).map fun folder =>
      (folder.id, descendant.snd + 1)
  else []

/-- The moved folder and everything under it, with heights. -/
def descendantRows (folders : List (FolderRow Id)) (folderId : Id) : List (Id × Nat) :=
  recursiveRows (joinDescendants folders) (FOLDER_DEPTH_LIMIT + 1)
    ((folders.filter fun folder => folder.id == folderId).map fun folder => (folder.id, 1))

structure Subtree where
  height : Nat
  cycle : Bool

def readSubtree (folders : List (FolderRow Id)) (folderId : Id) (parentId : Option Id) : Subtree :=
  let descendants := descendantRows folders folderId
  -- the maximum of no rows is null, which adds nothing
  { height := ((descendants.map Prod.snd).max?).getD 0
    cycle := descendants.any fun row => some row.fst == parentId }

/-!
## What the queries find

A path leads from a folder over its parents to a top-level folder; the workspace
itself has the empty path.
-/

def FolderPath (folders : List (FolderRow Id)) : Option Id -> List (FolderRow Id) -> Prop
  | none, path => path = []
  | some id, path => ParentChain folders FolderRow.id FolderRow.parentId id path

/-- The second folder is so many parents above the first one. -/
def IsUnder (folders : List (FolderRow Id)) (id top : Id) (steps : Nat) : Prop :=
  ParentSteps folders FolderRow.id FolderRow.parentId id top steps

variable {folders : List (FolderRow Id)}

omit [DecidableEq Id] in
theorem exists_of_folderPath {id : Id} {path : List (FolderRow Id)}
    (h : FolderPath folders (some id) path) :
    exists row rest, path = row :: rest ∧ row ∈ folders ∧ row.id = id ∧
      FolderPath folders row.parentId rest := by
  have hchain : ParentChain folders FolderRow.id FolderRow.parentId id path := h
  cases hchain with
  | @root row hmem hroot =>
      refine ⟨row, [], rfl, hmem, rfl, ?_⟩
      rw [hroot]
      rfl
  | @child row parent rest hmem hparent hrest =>
      refine ⟨row, rest, rfl, hmem, rfl, ?_⟩
      rw [hparent]
      exact hrest

theorem ancestorRows_along (hids : (folders.map FolderRow.id).Nodup) {parentId : Option Id}
    {path : List (FolderRow Id)} (depth rounds : Nat) (h : FolderPath folders parentId path)
    (hdepth : depth + path.length ≤ FOLDER_DEPTH_LIMIT + 1) (hrounds : path.length < rounds) :
    let rows := recursiveRows (joinAncestors folders) rounds [(parentId, depth)]
    (forall row, row ∈ rows -> row.snd ≤ depth + path.length) ∧
      (none, depth + path.length) ∈ rows := by
  induction path generalizing parentId depth rounds with
  | nil =>
      cases parentId with
      | some id =>
          rcases exists_of_folderPath h with ⟨_, _, hpath, _⟩
          cases hpath
      | none =>
          obtain ⟨rounds, rfl⟩ : exists n, rounds = n + 1 :=
            Nat.exists_eq_succ_of_ne_zero (Nat.ne_of_gt hrounds)
          have hjoin : joinAncestors folders (none, depth) = [] := by
            rw [joinAncestors]
            split
            · simp
            · rfl
          simp [recursiveRows, hjoin, recursiveRows_nil]
  | cons row rest ih =>
      cases parentId with
      | none => cases h
      | some id =>
          obtain ⟨rounds, rfl⟩ : exists n, rounds = n + 1 :=
            Nat.exists_eq_succ_of_ne_zero
              (Nat.ne_of_gt (Nat.lt_of_le_of_lt (Nat.zero_le _) hrounds))
          rcases exists_of_folderPath h with ⟨_, _, hpath, hmem, rfl, hrest⟩
          cases hpath
          rw [List.length_cons] at hdepth hrounds
          have hjoin : joinAncestors folders (some row.id, depth) =
              [(row.parentId, depth + 1)] := by
            have hfound := filter_key hids hmem
            rw [joinAncestors, if_pos (show depth ≤ FOLDER_DEPTH_LIMIT by omega)]
            simp [hfound]
          have hfurther := @ih row.parentId (depth + 1) rounds hrest (by omega) (by omega)
          simp only [recursiveRows, List.flatMap_cons, List.flatMap_nil, hjoin, List.append_nil,
            List.length_cons]
          rw [show depth + (rest.length + 1) = depth + 1 + rest.length by omega]
          constructor
          · intro row' hrow'
            rcases List.mem_append.mp hrow' with hfirst | hlater
            · rw [List.mem_singleton.mp hfirst]
              show depth ≤ _
              omega
            · exact hfurther.left row' hlater
          · exact List.mem_append_right _ hfurther.right

/-- A folder whose path fits is as deep as its path is long. -/
theorem folderDepth_of_path (hids : (folders.map FolderRow.id).Nodup) {folderId : Option Id}
    {path : List (FolderRow Id)} (h : FolderPath folders folderId path)
    (hlimit : path.length ≤ FOLDER_DEPTH_LIMIT) :
    folderDepth folders folderId = .ok path.length := by
  cases folderId with
  | none =>
      rw [show path = [] from h]
      rfl
  | some id =>
      rcases exists_of_folderPath h with ⟨row, rest, rfl, hmem, rfl, hrest⟩
      rw [List.length_cons] at hlimit ⊢
      have hrows := ancestorRows_along hids 1 (FOLDER_DEPTH_LIMIT + 1) hrest (by omega)
        (by omega)
      have hbase : ancestorRows folders row.id =
          recursiveRows (joinAncestors folders) (FOLDER_DEPTH_LIMIT + 1) [(row.parentId, 1)] := by
        rw [ancestorRows, filter_key hids hmem]
        rfl
      dsimp only at hrows
      rw [← hbase] at hrows
      have hmax : ((ancestorRows folders row.id).map Prod.snd).max? = some (rest.length + 1) := by
        rw [List.max?_eq_some_iff]
        constructor
        · exact List.mem_map.mpr ⟨_, hrows.right, Nat.add_comm _ _⟩
        · intro depth hdepth
          rcases List.mem_map.mp hdepth with ⟨ancestor, hancestor, rfl⟩
          rw [Nat.add_comm]
          exact hrows.left ancestor hancestor
      have hrooted : (ancestorRows folders row.id).any (fun row => row.fst.isNone) = true :=
        List.any_eq_true.mpr ⟨_, hrows.right, rfl⟩
      rw [folderDepth, hmax]
      dsimp only
      rw [hrooted, if_neg]
      simp only [Bool.not_true, Bool.false_or, decide_eq_true_eq]
      omega

/-- Where the depth query finds a top-level folder, its rows are a path. -/
theorem exists_path_of_ancestorRows (hids : (folders.map FolderRow.id).Nodup)
    {parentId : Option Id} {depth rounds last : Nat}
    (h : (none, last) ∈ recursiveRows (joinAncestors folders) rounds [(parentId, depth)]) :
    exists path, FolderPath folders parentId path ∧ last = depth + path.length := by
  induction rounds generalizing parentId depth with
  | zero => cases h
  | succ rounds ih =>
      rw [recursiveRows, List.flatMap_singleton] at h
      rcases List.mem_append.mp h with hfirst | hlater
      · cases List.mem_singleton.mp hfirst
        exact ⟨[], rfl, rfl⟩
      · by_cases hfound : exists row, row ∈ folders ∧ some row.id = parentId
        · rcases hfound with ⟨row, hmem, rfl⟩
          rw [joinAncestors] at hlater
          split at hlater
          · have hjoin : (folders.filter fun folder => some folder.id == some row.id) = [row] := by
              rw [← filter_key hids hmem]
              rfl
            rw [hjoin] at hlater
            rcases ih hlater with ⟨path, hpath, rfl⟩
            refine ⟨row :: path, ?_, ?_⟩
            · cases hparent : row.parentId with
              | none =>
                  rw [hparent] at hpath
                  obtain rfl : path = [] := hpath
                  exact ParentChain.root hmem hparent
              | some id =>
                  rw [hparent] at hpath
                  exact ParentChain.child hmem hparent hpath
            · rw [List.length_cons]
              omega
          · rw [recursiveRows_nil] at hlater
            cases hlater
        · have hjoin : joinAncestors folders (parentId, depth) = [] := by
            rw [joinAncestors, List.map_eq_nil_iff.mpr, ite_self]
            rw [List.filter_eq_nil_iff]
            intro row hmem hsame
            exact hfound ⟨row, hmem, beq_iff_eq.mp hsame⟩
          rw [hjoin, recursiveRows_nil] at hlater
          cases hlater

theorem folderDepth_eq_ok_iff (hids : (folders.map FolderRow.id).Nodup) (folderId : Option Id)
    (depth : Nat) :
    folderDepth folders folderId = .ok depth ↔
      depth ≤ FOLDER_DEPTH_LIMIT ∧
        exists path, FolderPath folders folderId path ∧ path.length = depth := by
  constructor
  · intro h
    cases folderId with
    | none =>
        cases h
        exact ⟨Nat.zero_le _, [], rfl, rfl⟩
    | some id =>
        have hdepth := h
        rw [folderDepth] at h
        split at h
        · cases h
        · next deepest hdeepest =>
          split at h
          · cases h
          · next hfits =>
            cases h
            rw [Bool.or_eq_true, not_or, Bool.not_eq_true', Bool.not_eq_false, List.any_eq_true,
              decide_eq_true_eq] at hfits
            rcases hfits with ⟨⟨⟨top, last⟩, hlast, htop⟩, hlimit⟩
            obtain rfl : top = none := Option.isNone_iff_eq_none.mp htop
            have hrows : (none, last) ∈ recursiveRows (joinAncestors folders)
                (FOLDER_DEPTH_LIMIT + 2) [(some id, 0)] := by
              rw [recursiveRows, List.flatMap_singleton]
              exact List.mem_append_right _ hlast
            rcases exists_path_of_ancestorRows hids hrows with ⟨path, hpath, hlength⟩
            rw [Nat.zero_add] at hlength
            have hle : path.length ≤ depth := by
              rw [← hlength]
              exact (List.max?_eq_some_iff.mp hdeepest).right _ (List.mem_map_of_mem hlast)
            have hsame := folderDepth_of_path hids hpath (by omega)
            exact ⟨Nat.le_of_not_lt hlimit, path, hpath, Except.ok.inj (hsame.symm.trans hdepth)⟩
  · rintro ⟨hlimit, path, hpath, rfl⟩
    exact folderDepth_of_path hids hpath hlimit

theorem folderDepth_error {folderId : Option Id} {error : FolderError}
    (h : folderDepth folders folderId = .error error) : error = .conflict .hierarchy := by
  cases folderId with
  | none => cases h
  | some id =>
      rw [folderDepth] at h
      split at h
      · cases h
        rfl
      · split at h
        · cases h
          rfl
        · cases h

/-- Also in a table with cycles and missing parents a folder has the depth of its path to the top,
and every other folder is reported as a broken hierarchy. -/
theorem folder_depth_exact (hids : (folders.map FolderRow.id).Nodup) (folderId : Option Id) :
    (forall depth, folderDepth folders folderId = .ok depth ↔
      depth ≤ FOLDER_DEPTH_LIMIT ∧
        exists path, FolderPath folders folderId path ∧ path.length = depth) ∧
      forall error, folderDepth folders folderId = .error error -> error = .conflict .hierarchy :=
  ⟨folderDepth_eq_ok_iff hids folderId, fun _ => folderDepth_error⟩

def loopedFolders : List (FolderRow Nat) :=
  [⟨1, "a", some 2, 1, .workspace, "a"⟩, ⟨2, "b", some 1, 1, .workspace, "b"⟩]

theorem folder_depth_exact_sample :
    (¬ exists path, FolderPath loopedFolders (some 1) path ∧ path.length = 2) ∧
      folderDepth loopedFolders (some 1) = .error (.conflict .hierarchy) := by
  have hexact := @folder_depth_exact Nat _ loopedFolders (by decide) (some 1)
  constructor
  · intro hpath
    have hdepth := (hexact.left 2).mpr ⟨by decide, hpath⟩
    revert hdepth
    decide
  · have hbroken : (folderDepth loopedFolders (some 1)).toOption = none := by decide
    cases hdepth : folderDepth loopedFolders (some 1) with
    | error error => rw [hexact.right error hdepth]
    | ok depth =>
        rw [hdepth] at hbroken
        cases hbroken

theorem mem_joinDescendants {descendant row : Id × Nat} :
    row ∈ joinDescendants folders descendant ↔ descendant.snd ≤ FOLDER_DEPTH_LIMIT ∧
      exists folder, folder ∈ folders ∧ folder.parentId = some descendant.fst ∧
        row = (folder.id, descendant.snd + 1) := by
  rw [joinDescendants]
  split
  · next hle =>
    rw [List.mem_map]
    constructor
    · intro h
      rcases h with ⟨folder, hfolder, rfl⟩
      rcases List.mem_filter.mp hfolder with ⟨hmem, hparent⟩
      exact ⟨hle, folder, hmem, beq_iff_eq.mp hparent, rfl⟩
    · intro h
      rcases h with ⟨_, folder, hmem, hparent, rfl⟩
      exact ⟨folder, List.mem_filter.mpr ⟨hmem, beq_iff_eq.mpr hparent⟩, rfl⟩
  · next hnot =>
    constructor
    · intro h
      cases h
    · intro h
      exact absurd h.left hnot

theorem mem_descendantRound {folderId : Id} {round : Nat} {row : Id × Nat} :
    row ∈ recursiveRound (joinDescendants folders) round
        ((folders.filter fun folder => folder.id == folderId).map fun folder => (folder.id, 1)) ↔
      round ≤ FOLDER_DEPTH_LIMIT ∧ row.snd = round + 1 ∧
        IsUnder folders row.fst folderId round := by
  induction round generalizing row with
  | zero =>
      simp only [recursiveRound, List.mem_map, List.mem_filter, beq_iff_eq]
      constructor
      · intro h
        rcases h with ⟨folder, ⟨hmem, rfl⟩, rfl⟩
        exact ⟨Nat.zero_le _, rfl, ParentSteps.here hmem⟩
      · intro h
        rcases h with ⟨_, hrank, hunder⟩
        rcases row with ⟨id, rank⟩
        dsimp only at hrank hunder
        cases hunder with
        | @here folder hmem => exact ⟨folder, ⟨hmem, rfl⟩, by rw [hrank]⟩
  | succ round ih =>
      rw [recursiveRound_succ, List.mem_flatMap]
      constructor
      · intro h
        rcases h with ⟨earlier, hearlier, hjoined⟩
        rcases ih.mp hearlier with ⟨_, hrank, hunder⟩
        rcases mem_joinDescendants.mp hjoined with ⟨hle, folder, hmem, hparent, rfl⟩
        rw [hrank] at hle
        exact ⟨hle, congrArg Nat.succ hrank, ParentSteps.up hmem hparent hunder⟩
      · intro h
        rcases h with ⟨hle, hrank, hunder⟩
        rcases row with ⟨id, rank⟩
        dsimp only at hrank hunder
        cases hunder with
        | @up folder parent _ _ hmem hparent hrest =>
            refine ⟨(parent, round + 1), ih.mpr ⟨Nat.le_of_succ_le hle, rfl, hrest⟩, ?_⟩
            exact mem_joinDescendants.mpr ⟨hle, folder, hmem, hparent, by rw [hrank]⟩

theorem mem_descendantRows {folderId : Id} {row : Id × Nat} :
    row ∈ descendantRows folders folderId ↔
      exists steps, steps ≤ FOLDER_DEPTH_LIMIT ∧ row = (row.fst, steps + 1) ∧
        IsUnder folders row.fst folderId steps := by
  rw [descendantRows, mem_recursiveRows]
  constructor
  · intro h
    rcases h with ⟨round, _, hrow⟩
    rcases mem_descendantRound.mp hrow with ⟨hle, hrank, hunder⟩
    exact ⟨round, hle, by rw [← hrank], hunder⟩
  · intro h
    rcases h with ⟨steps, hle, hrow, hunder⟩
    refine ⟨steps, Nat.lt_succ_of_le hle, mem_descendantRound.mpr ⟨hle, ?_, hunder⟩⟩
    rw [hrow]

end

end Folders
end Pertexo
