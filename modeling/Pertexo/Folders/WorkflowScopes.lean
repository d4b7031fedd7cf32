import Pertexo.Folders.FolderScopes

/-!
# Workflows in scope

## Stored folders and placements

Every placement in a folder refers to a folder of its workspace that is stored.
-/

namespace Pertexo
namespace Folders

open Library

structure WorkflowFolder (Id : Type) where
  workspaceId : Id
  fact : FolderFact Id

structure WorkflowOrganizationState (Id : Type) where
  workspaceId : Id
  workflowId : Id
  folderId : Option Id

structure OrganizationTables (Id : Type) where
  folders : List (WorkflowFolder Id)
  placements : List (WorkflowOrganizationState Id)
  folderKeys : (folders.map fun folder => (folder.workspaceId, folder.fact.id)).Nodup
  placementKeys : (placements.map fun placement =>
    (placement.workspaceId, placement.workflowId)).Nodup
  placedIn : forall placement, placement ∈ placements -> forall id, placement.folderId = some id ->
    exists folder, folder ∈ folders ∧ folder.workspaceId = placement.workspaceId ∧
      folder.fact.id = id

/-- A workspace's folders; the scope read refuses more. -/
def FOLDER_LIMIT : Nat :=
  256

section

variable {Id : Type} [DecidableEq Id]

/-!
## Reading a scope
-/

def folderFacts (compareIds : Id -> Id -> Ordering) (tables : OrganizationTables Id)
    (workspaceId : Id) : List (FolderFact Id) :=
  sortWith (fun left right => compareIds left.id right.id)
    ((tables.folders.filter fun folder => folder.workspaceId == workspaceId).map
      WorkflowFolder.fact)

/-- The role is the fenced one or the one read; the grants are the actor's own. -/
def readTransactionFolderScope (compareIds : Id -> Id -> Ordering) (tables : OrganizationTables Id)
    (workspaceId : Id) (role : Option Role) (matchingGrants : List (MatchingFolderGrant Id)) :
    Except String (FolderScope Id) :=
  match role with
  | none => .ok (folderScope workspaceId none [] [])
  | some held =>
      let folders := (folderFacts compareIds tables workspaceId).take (FOLDER_LIMIT + 1)
      if folders.length > FOLDER_LIMIT then
        .error "Workspace folder facts exceed the supported bound."
      else
        let grants := if RESOURCE_ADMINISTRATORS.contains held then [] else matchingGrants
        .ok (folderScope workspaceId role folders grants)

/-!
## The filter of workflows
-/

/-- The value of the filter's SQL for one workflow, in the workspace of the session. -/
def workflowScopeSql (tables : OrganizationTables Id) (currentWorkspace : Id)
    (scope : FolderScope Id) (workflowId : Id) (capability : WorkflowResourceCapability) : Bool :=
  if !scope.permits none capability then false
  else
    let workspace := scope.workspaceId == currentWorkspace
    let denied := scope.deniedFolderIds capability
    if denied.isEmpty then workspace
    else
      workspace && !(tables.placements.any fun placement =>
        placement.workspaceId == currentWorkspace && placement.workflowId == workflowId &&
          placement.folderId.any denied.contains)

def folderOf (tables : OrganizationTables Id) (workspaceId workflowId : Id) : Option Id :=
  (tables.placements.find? fun placement =>
    placement.workspaceId == workspaceId && placement.workflowId == workflowId).bind
      WorkflowOrganizationState.folderId

theorem mem_folderFacts {compareIds : Id -> Id -> Ordering} {tables : OrganizationTables Id}
    {workspaceId : Id} {fact : FolderFact Id} :
    fact ∈ folderFacts compareIds tables workspaceId ↔
      exists folder, folder ∈ tables.folders ∧ folder.workspaceId = workspaceId ∧
        folder.fact = fact := by
  rw [folderFacts, (perm_sortWith _ _).mem_iff]
  simp [and_assoc]

theorem nodup_folderFacts (compareIds : Id -> Id -> Ordering) (tables : OrganizationTables Id)
    (workspaceId : Id) :
    ((folderFacts compareIds tables workspaceId).map FolderFact.id).Nodup := by
  rw [folderFacts, ((perm_sortWith _ _).map FolderFact.id).nodup_iff, List.map_map]
  have hkeys := tables.folderKeys
  generalize tables.folders = folders at hkeys
  induction folders with
  | nil => exact List.nodup_nil
  | cons folder rest ih =>
      rw [List.map_cons, List.nodup_cons] at hkeys
      rw [List.filter_cons]
      split
      · next hworkspace =>
        rw [List.map_cons, List.nodup_cons]
        refine ⟨?_, ih hkeys.right⟩
        intro hagain
        apply hkeys.left
        rcases List.mem_map.mp hagain with ⟨other, hother, hid⟩
        rcases List.mem_filter.mp hother with ⟨hmem, hsame⟩
        rw [← beq_iff_eq.mp hsame] at hworkspace
        refine List.mem_map.mpr ⟨other, hmem, ?_⟩
        rw [beq_iff_eq.mp hworkspace]
        exact congrArg _ hid
      · exact ih hkeys.right

/-- A scope that was read holds all folders of its workspace, and grants unless they do not
matter. -/
theorem readTransactionFolderScope_spec {compareIds : Id -> Id -> Ordering}
    {tables : OrganizationTables Id} {workspaceId : Id} {role : Option Role}
    {matchingGrants : List (MatchingFolderGrant Id)} {scope : FolderScope Id}
    (h : readTransactionFolderScope compareIds tables workspaceId role matchingGrants = .ok scope) :
    (role = none ∧ scope = folderScope workspaceId none [] []) ∨
      exists grants, scope =
        folderScope workspaceId role (folderFacts compareIds tables workspaceId) grants := by
  rw [readTransactionFolderScope.eq_def] at h
  cases role with
  | none =>
      cases h
      exact Or.inl ⟨rfl, rfl⟩
  | some held =>
      right
      dsimp only at h
      split at h
      · cases h
      · next hfew =>
        cases h
        have hall : (folderFacts compareIds tables workspaceId).length ≤ FOLDER_LIMIT + 1 := by
          rw [List.length_take] at hfew
          omega
        rw [List.take_of_length_le hall]
        exact ⟨_, rfl⟩

theorem placement_unique {tables : OrganizationTables Id} {workspaceId workflowId : Id}
    {placement : WorkflowOrganizationState Id} (hmem : placement ∈ tables.placements)
    (hworkspace : placement.workspaceId = workspaceId)
    (hworkflow : placement.workflowId = workflowId) :
    folderOf tables workspaceId workflowId = placement.folderId := by
  rw [folderOf]
  cases hfind : tables.placements.find? fun placement =>
      placement.workspaceId == workspaceId && placement.workflowId == workflowId with
  | none =>
      have hno := List.find?_eq_none.mp hfind placement hmem
      simp [hworkspace, hworkflow] at hno
  | some found =>
      have hkey := List.find?_some hfind
      rw [Bool.and_eq_true, beq_iff_eq, beq_iff_eq] at hkey
      have hsame : found = placement := by
        apply eq_of_key_eq tables.placementKeys (List.mem_of_find?_eq_some hfind) hmem
        rw [hkey.left, hkey.right, hworkspace, hworkflow]
      rw [hsame]
      rfl

theorem mem_deniedFolderIds (workspaceId : Id) (role : Option Role)
    (folders : List (FolderFact Id)) (grants : List (MatchingFolderGrant Id)) (id : Id)
    (capability : WorkflowResourceCapability) :
    id ∈ (folderScope workspaceId role folders grants).deniedFolderIds capability ↔
      id ∈ folders.map FolderFact.id ∧
        (folderScope workspaceId role folders grants).permits (some id) capability = false := by
  rw [folderScope_permits]
  show id ∈ (folders.filter fun folder =>
    !permits role (finalState role folders grants).snd (some folder.id) capability).map
      FolderFact.id ↔ _
  simp only [List.mem_map, List.mem_filter, Bool.not_eq_true']
  constructor
  · intro h
    rcases h with ⟨folder, ⟨hmem, hdenied⟩, rfl⟩
    exact ⟨⟨folder, hmem, rfl⟩, hdenied⟩
  · intro h
    rcases h with ⟨⟨folder, hmem, rfl⟩, hdenied⟩
    exact ⟨folder, ⟨hmem, hdenied⟩, rfl⟩

/-- Excluding denied folders decides as the scope itself does. -/
theorem workflowScopeSql_eq {compareIds : Id -> Id -> Ordering} {tables : OrganizationTables Id}
    {workspaceId : Id} {role : Option Role} {matchingGrants : List (MatchingFolderGrant Id)}
    {scope : FolderScope Id}
    (h : readTransactionFolderScope compareIds tables workspaceId role matchingGrants = .ok scope)
    (workflowId : Id) (capability : WorkflowResourceCapability) :
    workflowScopeSql tables workspaceId scope workflowId capability =
      scope.permits (folderOf tables workspaceId workflowId) capability := by
  rcases readTransactionFolderScope_spec h with ⟨rfl, rfl⟩ | ⟨grants, rfl⟩
  · rfl
  · have hids := nodup_folderFacts compareIds tables workspaceId
    generalize hfacts : folderFacts compareIds tables workspaceId = facts at hids
    generalize hscope : folderScope workspaceId role facts grants = scope
    have hdenied := mem_deniedFolderIds workspaceId role facts grants
    have hpermits := permits_iff hids workspaceId role grants
    rw [hscope] at hdenied hpermits
    have hworkspace : scope.workspaceId = workspaceId := by
      rw [← hscope]
      rfl
    have hnone : scope.permits none capability = false ->
        forall folderId, scope.permits folderId capability = false := by
      intro hrefused folderId
      rw [Bool.eq_false_iff, Ne, hpermits] at hrefused ⊢
      rintro ⟨held, hrole, hcapability, _⟩
      exact hrefused ⟨held, hrole, hcapability, fun _ hsome => nomatch hsome⟩
    rw [workflowScopeSql]
    cases hopen : scope.permits none capability with
    | false => simp [hnone hopen]
    | true =>
        have hfilter : (if (scope.deniedFolderIds capability).isEmpty then
              scope.workspaceId == workspaceId
            else scope.workspaceId == workspaceId && !(tables.placements.any fun placement =>
              placement.workspaceId == workspaceId && placement.workflowId == workflowId &&
                placement.folderId.any (scope.deniedFolderIds capability).contains)) =
            !(tables.placements.any fun placement =>
              placement.workspaceId == workspaceId && placement.workflowId == workflowId &&
                placement.folderId.any (scope.deniedFolderIds capability).contains) := by
          split
          · next hempty =>
            rw [List.isEmpty_iff.mp hempty]
            have hnever : (([] : List Id).contains : Id -> Bool) = fun _ => false := by
              funext id
              simp
            simp [hworkspace, hnever]
          · simp [hworkspace]
        simp only [Bool.not_true, Bool.false_eq_true, if_false]
        rw [hfilter, Bool.eq_iff_iff, Bool.not_eq_true', List.any_eq_false]
        constructor
        · intro hexcluded
          cases hfolder : folderOf tables workspaceId workflowId with
          | none => exact hopen
          | some id =>
              rw [folderOf, Option.bind_eq_some_iff] at hfolder
              rcases hfolder with ⟨placement, hfind, hid⟩
              have hmem := List.mem_of_find?_eq_some hfind
              have hkey := List.find?_some hfind
              have hnot := hexcluded placement hmem
              rw [Bool.and_eq_true, beq_iff_eq, beq_iff_eq] at hkey
              rcases tables.placedIn placement hmem id hid with ⟨folder, hstored, hsame, rfl⟩
              have hfact : folder.fact ∈ facts := by
                rw [← hfacts]
                exact mem_folderFacts.mpr ⟨folder, hstored, hsame.trans hkey.left, rfl⟩
              cases hpermit : scope.permits (some folder.fact.id) capability with
              | true => rfl
              | false =>
                  exfalso
                  apply hnot
                  have hmemDenied := (hdenied folder.fact.id capability).mpr
                    ⟨List.mem_map_of_mem hfact, hpermit⟩
                  simp [hkey.left, hkey.right, hid, hmemDenied]
        · intro hpermit placement hmem hmatch
          simp only [Bool.and_eq_true, beq_iff_eq] at hmatch
          rw [placement_unique hmem hmatch.left.left hmatch.left.right] at hpermit
          cases hid : placement.folderId with
          | none => simp [hid] at hmatch
          | some id =>
              have hcontained : id ∈ scope.deniedFolderIds capability := by
                simpa [hid] using hmatch.right
              rw [hid, ((hdenied id capability).mp hcontained).right] at hpermit
              cases hpermit

end

end Folders
end Pertexo
