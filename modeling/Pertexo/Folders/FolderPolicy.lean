import Pertexo.Library.Keyed
import Pertexo.Library.ParentChains
import Pertexo.Library.Sorting

/-!
# Folder policy

## Roles and capabilities
-/

namespace Pertexo
namespace Folders

open Library

inductive Role where
  | owner
  | admin
  | builder
  | operator
  | viewer
deriving DecidableEq, Repr

def ROLES : List Role :=
  [.owner, .admin, .builder, .operator, .viewer]

def ADMINISTRATIVE_ROLES : List Role :=
  [.owner, .admin]

def WORKFLOW_EDITOR_ROLES : List Role :=
  ADMINISTRATIVE_ROLES ++ [.builder]

def operationalRoles : List Role :=
  ADMINISTRATIVE_ROLES ++ [.operator]

def executionRoles : List Role :=
  WORKFLOW_EDITOR_ROLES ++ [.operator]

inductive WorkflowResourceCapability where
  | workflowRead
  | workflowCreate
  | workflowUpdate
  | workflowPublish
  | runRead
  | runReadData
  | runStart
  | runCancel
  | runReplay
deriving DecidableEq, Repr

def capabilityRoles : WorkflowResourceCapability -> List Role
  | .workflowRead => ROLES
  | .workflowCreate => WORKFLOW_EDITOR_ROLES
  | .workflowUpdate => WORKFLOW_EDITOR_ROLES
  | .workflowPublish => WORKFLOW_EDITOR_ROLES
  | .runRead => ROLES
  | .runReadData => ROLES
  | .runStart => executionRoles
  | .runCancel => operationalRoles
  | .runReplay => operationalRoles

def hasCapability (role : Role) (capability : WorkflowResourceCapability) : Bool :=
  (capabilityRoles capability).contains role

def RESOURCE_ADMINISTRATORS : List Role :=
  ADMINISTRATIVE_ROLES

def isEditing (capability : WorkflowResourceCapability) : Bool :=
  [WorkflowResourceCapability.workflowCreate, .workflowUpdate, .workflowPublish].contains capability

/-!
## Facts
-/

inductive AccessMode where
  | workspace
  | restricted
deriving DecidableEq, Repr

inductive FolderAccess where
  | viewer
  | editor
deriving DecidableEq, Repr

structure FolderFact (Id : Type) where
  id : Id
  parentId : Option Id
  accessMode : AccessMode
deriving DecidableEq

structure MatchingFolderGrant (Id : Type) where
  folderId : Id
  access : FolderAccess
deriving DecidableEq

section

variable {Id : Type} [DecidableEq Id]

abbrev FolderMap (Id : Type) [DecidableEq Id] : Type :=
  Keyed (FolderFact Id) FolderFact.id

abbrev GrantMap (Id : Type) [DecidableEq Id] : Type :=
  Keyed (MatchingFolderGrant Id) MatchingFolderGrant.folderId

/-- The paths found so far, each under the folder it starts at. -/
abbrev PathMap (Id : Type) [DecidableEq Id] : Type :=
  Keyed (Id × List (FolderFact Id)) Prod.fst

abbrev LevelMap (Id : Type) [DecidableEq Id] : Type :=
  Keyed (Id × FolderAccess) Prod.fst

/-!
## Scopes
-/

/-- The highest matching grant of each folder. -/
def matchingGrant (matching : GrantMap Id) (grant : MatchingFolderGrant Id) : GrantMap Id :=
  if (matching.get? grant.folderId).map MatchingFolderGrant.access != some .editor then
    matching.set grant
  else matching

/-- The loop over parents: a path that repeats a folder has no end. -/
def climb (byId : FolderMap Id) : Nat -> List (FolderFact Id) -> Id -> Option (List (FolderFact Id))
  | 0, _, _ => none
  | fuel + 1, path, current =>
      match byId.get? current with
      | none => none
      | some folder =>
          if path.any fun entry => entry.id == current then none
          else
            match folder.parentId with
            | none => some (path ++ [folder])
            | some parent => climb byId fuel (path ++ [folder]) parent

/-- A path without repetition is no longer than the list of folders. -/
def ancestors (byId : FolderMap Id) (paths : PathMap Id) (id : Id) :
    Option (List (FolderFact Id)) × PathMap Id :=
  match paths.get? id with
  | some cached => (some cached.snd, paths)
  | none =>
      match climb byId (byId.items.length + 1) [] id with
      | none => (none, paths)
      | some path => (some path, paths.set (id, path))

def accessAlong (administrator : Bool) (matching : GrantMap Id) :
    List (FolderFact Id) -> FolderAccess -> Option FolderAccess
  | [], access => some access
  | ancestor :: rest, access =>
      if administrator || ancestor.accessMode == .workspace then
        accessAlong administrator matching rest access
      else
        match (matching.get? ancestor.id).map MatchingFolderGrant.access with
        | none => none
        | some .viewer => accessAlong administrator matching rest .viewer
        | some .editor => accessAlong administrator matching rest access

def isAdministrator (role : Option Role) : Bool :=
  role.any RESOURCE_ADMINISTRATORS.contains

def addLevel (role : Option Role) (byId : FolderMap Id) (matching : GrantMap Id)
    (state : PathMap Id × LevelMap Id) (folder : FolderFact Id) : PathMap Id × LevelMap Id :=
  match ancestors byId state.fst folder.id with
  | (none, paths) => (paths, state.snd)
  | (some path, paths) =>
      if role.isNone then (paths, state.snd)
      else
        match accessAlong (isAdministrator role) matching path .editor with
        | none => (paths, state.snd)
        | some access => (paths, state.snd.set (folder.id, access))

def permits (role : Option Role) (levels : LevelMap Id) (folderId : Option Id)
    (capability : WorkflowResourceCapability) : Bool :=
  match role with
  | none => false
  | some role =>
      if !hasCapability role capability then false
      else
        match folderId with
        | none => true
        | some id =>
            match (levels.get? id).map Prod.snd with
            | some .editor => true
            | some .viewer => !isEditing capability
            | none => false

structure FolderScope (Id : Type) where
  workspaceId : Id
  role : Option Role
  readFolderIds : List Id
  editFolderIds : List Id
  permits : Option Id -> WorkflowResourceCapability -> Bool
  deniedFolderIds : WorkflowResourceCapability -> List Id
  restrictions : Option Id -> List Id

/-- Highest matching grant locally; intersect every restricted ancestor. -/
def folderScope (workspaceId : Id) (role : Option Role) (folders : List (FolderFact Id))
    (grants : List (MatchingFolderGrant Id)) : FolderScope Id :=
  let byId : FolderMap Id := Keyed.ofList folders
  let matching := grants.foldl matchingGrant Keyed.empty
  let state := folders.foldl (addLevel role byId matching) (Keyed.empty, Keyed.empty)
  let levels := state.snd
  { workspaceId
    role
    readFolderIds := (levels.items.map Prod.fst).filter fun _ =>
      role.any fun role => hasCapability role .workflowRead
    editFolderIds := (levels.items.filter fun level =>
      level.snd == .editor && role.any fun role => hasCapability role .workflowUpdate).map Prod.fst
    permits := permits role levels
    deniedFolderIds := fun capability =>
      (folders.filter fun folder => !permits role levels (some folder.id) capability).map
        FolderFact.id
    restrictions := fun folderId =>
      match folderId with
      | none => []
      | some id =>
          (((ancestors byId state.fst id).fst.getD []).filter fun folder =>
            folder.accessMode == .restricted).map FolderFact.id }

end

end Folders
end Pertexo
