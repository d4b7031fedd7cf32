import Mathlib.Algebra.GroupWithZero.Nat
import Pertexo.Folders.FolderHierarchy
import Pertexo.Folders.WorkflowScopes

/-!
# Folder commands

## Requests and results
-/

namespace Pertexo
namespace Folders

open Library

structure AudienceReview where
  acknowledge : Bool
  token : String
deriving DecidableEq

inductive FolderRequest (Id : Type) where
  | create (name : String) (parentId : Option Id)
  | rename (folderId : Id) (name : String) (expectedFolderRevision : Nat)
  | move (folderId : Id) (parentId : Option Id) (audienceReview : Option AudienceReview)
      (expectedFolderRevision : Nat)
  | delete (folderId : Id) (expectedFolderRevision : Nat)
deriving DecidableEq

def FolderRequest.operation {Id : Type} : FolderRequest Id -> String
  | .create .. => "folder.create"
  | .rename .. => "folder.rename"
  | .move .. => "folder.move"
  | .delete .. => "folder.delete"

def FolderRequest.target {Id : Type} : FolderRequest Id -> Option Id
  | .create .. => none
  | .rename folderId .. => some folderId
  | .move folderId .. => some folderId
  | .delete folderId .. => some folderId

structure FolderCommand (Id : Type) where
  actorId : Id
  commandCredentialId : Option Id
  role : Option Role
  idempotencyKey : String
  generatedId : Id
  request : FolderRequest Id
deriving DecidableEq

inductive FolderResult (Id : Type) where
  | folder (folder : WorkflowFolderRecord Id)
  | deleted (folderId : Id)
deriving DecidableEq

structure CommandReceipt (Id : Type) where
  operation : String
  scope : String
  keyHash : String
  requestHash : String
  result : FolderResult Id
deriving DecidableEq

structure WorkflowPlacement (Id : Type) where
  workflowId : Id
  folderId : Option Id
deriving DecidableEq

structure FolderState (Id : Type) where
  folders : List (FolderRow Id)
  placements : List (WorkflowPlacement Id)
  receipts : List (CommandReceipt Id)

inductive AudienceRefusal where
  | bound
  | notVisible
  | reviewRequired
deriving DecidableEq, Repr

/-- Digests, the shape of a stored result, the column checks and the audience review. -/
structure FolderHost (Id : Type) where
  commandScope : Id -> Option Id -> Option Id -> String
  keyHash : String -> String
  requestHash : FolderRequest Id -> String
  readable : FolderResult Id -> Bool
  validName : String -> Bool
  reviewMove : List (FolderRow Id) -> FolderCommand Id -> Id -> Option Id ->
    Option AudienceReview -> Except AudienceRefusal Unit

def MAX_REVISION : Nat :=
  2 ^ 53 - 1

section

variable {Id : Type} [DecidableEq Id]

/-!
## Changes
-/

/-- The checks of the table's own columns. -/
def storable (host : FolderHost Id) (row : FolderRow Id) : Except FolderError Unit :=
  if host.validName row.name && row.revision ≤ MAX_REVISION then .ok ()
  else .error (.failure "Folder row violates a constraint")

def insertRow (host : FolderHost Id) (folders : List (FolderRow Id)) (row : FolderRow Id) :
    Except FolderError (List (FolderRow Id)) := do
  storable host row
  if folders.any fun folder => folder.id == row.id then
    .error (.failure "Folder id is taken")
  else
    .ok (folders ++ [row])

def updateRow (host : FolderHost Id) (folders : List (FolderRow Id)) (row : FolderRow Id) :
    Except FolderError (List (FolderRow Id)) := do
  storable host row
  return folders.map fun folder => if folder.id = row.id then row else folder

def requireFolderRoom (folders : List (FolderRow Id)) : Except FolderError Unit :=
  if folders.length ≥ FOLDER_LIMIT then .error (.conflict .limit) else .ok ()

def requireDepth (depth : Nat) : Except FolderError Unit :=
  if depth > FOLDER_DEPTH_LIMIT then .error (.conflict .hierarchy) else .ok ()

abbrev Change (Id : Type) : Type :=
  List (FolderRow Id) × FolderRow Id

def createFolder (host : FolderHost Id) (folders : List (FolderRow Id)) (generatedId : Id)
    (name : String) (parentId : Option Id) : Except FolderError (Change Id) := do
  readParent folders parentId
  requireFreeName folders parentId name none
  requireFolderRoom folders
  let depth <- folderDepth folders parentId
  requireDepth (depth + 1)
  let row := {
    id := generatedId
    name
    parentId
    revision := 1
    accessMode := .workspace
    nameKey := nameKey name }
  let changed <- insertRow host folders row
  return (changed, row)

def renameFolder (host : FolderHost Id) (folders : List (FolderRow Id)) (folderId : Id)
    (name : String) (expectedFolderRevision : Nat) : Except FolderError (Change Id) := do
  let current <- readFolder folders folderId
  requireRevision current expectedFolderRevision
  requireFreeName folders current.parentId name (some folderId)
  let renamed := { current with name, nameKey := nameKey name, revision := current.revision + 1 }
  let changed <- updateRow host folders renamed
  return (changed, renamed)

def requireMoveAudienceReview (host : FolderHost Id) (folders : List (FolderRow Id))
    (command : FolderCommand Id) (folderId : Id) (parentId : Option Id)
    (audienceReview : Option AudienceReview) : Except FolderError Unit :=
  match host.reviewMove folders command folderId parentId audienceReview with
  | .ok _ => .ok ()
  | .error .bound => .error (.failure "Folder hierarchy exceeds its bound")
  | .error .notVisible => .error (.notFound "Folder is not visible")
  | .error .reviewRequired => .error (.conflict .audienceReview)

/-- Everything a move checks before it reads the subtree. -/
def readMovedFolder (host : FolderHost Id) (folders : List (FolderRow Id))
    (command : FolderCommand Id) (folderId : Id) (parentId : Option Id)
    (audienceReview : Option AudienceReview) (expectedFolderRevision : Nat) :
    Except FolderError (FolderRow Id) := do
  readParent folders parentId
  requireMoveAudienceReview host folders command folderId parentId audienceReview
  let current <- readFolder folders folderId
  requireRevision current expectedFolderRevision
  requireFreeName folders parentId current.name (some folderId)
  return current

/-- The moved folder and everything under it must stay within the depth limit, and it
cannot move under itself. -/
def requireHierarchy (folders : List (FolderRow Id)) (folderId : Id) (parentId : Option Id) :
    Except FolderError Unit :=
  let subtree := readSubtree folders folderId parentId
  if subtree.cycle then .error (.conflict .hierarchy)
  else do
    let depth <- folderDepth folders parentId
    requireDepth (subtree.height + depth)

def moveFolder (host : FolderHost Id) (folders : List (FolderRow Id)) (command : FolderCommand Id)
    (folderId : Id) (parentId : Option Id) (audienceReview : Option AudienceReview)
    (expectedFolderRevision : Nat) : Except FolderError (Change Id) := do
  let current <- readMovedFolder host folders command folderId parentId audienceReview
    expectedFolderRevision
  requireHierarchy folders folderId parentId
  let moved := { current with parentId, revision := current.revision + 1 }
  let changed <- updateRow host folders moved
  return (changed, moved)

def requireUnused (state : FolderState Id) (folderId : Id) : Except FolderError Unit :=
  if state.folders.any (fun folder => folder.parentId == some folderId) ||
      state.placements.any (fun placement => placement.folderId == some folderId) then
    .error (.conflict .notEmpty)
  else .ok ()

def deleteFolder (state : FolderState Id) (folderId : Id) (expectedFolderRevision : Nat) :
    Except FolderError (List (FolderRow Id)) := do
  let current <- readFolder state.folders folderId
  requireRevision current expectedFolderRevision
  requireUnused state folderId
  return state.folders.filter fun folder => folder.id != folderId

/-!
## Commands
-/

/-- A folder command answers with the record of the changed row. -/
def folderChange (change : Except FolderError (Change Id)) :
    Except FolderError (List (FolderRow Id) × FolderResult Id) := do
  let (folders, row) <- change
  let record <- folderRecord folders row
  return (folders, .folder record)

def apply (host : FolderHost Id) (state : FolderState Id) (command : FolderCommand Id) :
    Except FolderError (List (FolderRow Id) × FolderResult Id) :=
  match command.request with
  | .create name parentId =>
      folderChange (createFolder host state.folders command.generatedId name parentId)
  | .rename folderId name expectedFolderRevision =>
      folderChange (renameFolder host state.folders folderId name expectedFolderRevision)
  | .move folderId parentId audienceReview expectedFolderRevision =>
      folderChange (moveFolder host state.folders command folderId parentId audienceReview
        expectedFolderRevision)
  | .delete folderId expectedFolderRevision => do
      let folders <- deleteFolder state folderId expectedFolderRevision
      return (folders, .deleted folderId)

def commandScope (host : FolderHost Id) (command : FolderCommand Id) : String :=
  host.commandScope command.actorId command.request.target command.commandCredentialId

/-- The stored result of an exact retry; the same key with a different request is refused. -/
def claimCommand (host : FolderHost Id) (state : FolderState Id) (command : FolderCommand Id) :
    Except FolderError (Option (FolderResult Id)) :=
  match state.receipts.find? fun receipt =>
      receipt.operation == command.request.operation &&
        receipt.scope == commandScope host command &&
        receipt.keyHash == host.keyHash command.idempotencyKey with
  | none => .ok none
  | some receipt =>
      if receipt.requestHash != host.requestHash command.request then .error .idempotencyConflict
      else if !host.readable receipt.result then .error .idempotencyConflict
      else .ok (some receipt.result)

/-- The fence: `governance:manage` in an active workspace. -/
def requireAuthority (command : FolderCommand Id) : Except FolderError Unit :=
  if command.role.any ADMINISTRATIVE_ROLES.contains then .ok ()
  else .error (.notFound "Workflow is not visible")

structure CommandAnswer (Id : Type) where
  result : FolderResult Id
  replayed : Bool
deriving DecidableEq

/-- The transaction of one command, under the organization lock. -/
def runOrganizationCommand (host : FolderHost Id) (state : FolderState Id)
    (command : FolderCommand Id) : Except FolderError (FolderState Id × CommandAnswer Id) := do
  requireAuthority command
  match <- claimCommand host state command with
  | some result => return (state, { result, replayed := true })
  | none =>
      let (folders, result) <- apply host state command
      let receipt := {
        operation := command.request.operation
        scope := commandScope host command
        keyHash := host.keyHash command.idempotencyKey
        requestHash := host.requestHash command.request
        result }
      return ({ state with folders, receipts := state.receipts ++ [receipt] },
        { result, replayed := false })

/-- A transaction that fails is rolled back. -/
def afterCommand (host : FolderHost Id) (state : FolderState Id) (command : FolderCommand Id) :
    FolderState Id :=
  match runOrganizationCommand host state command with
  | .ok (after, _) => after
  | .error _ => state

end

end Folders
end Pertexo
