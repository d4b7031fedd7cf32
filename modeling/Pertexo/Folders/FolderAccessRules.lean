import Pertexo.Folders.WorkflowScopes

/-!
# Folder access

## The listed folders
-/

namespace Pertexo
namespace Folders

open Library

section

variable {Id : Type} [DecidableEq Id] {folders : List (FolderFact Id)}

theorem mem_levels {levels : LevelMap Id} {id : Id} {access : FolderAccess} :
    (id, access) ∈ levels.items ↔ (levels.get? id).map Prod.snd = some access := by
  constructor
  · intro hmem
    rw [Keyed.get?_eq_some_iff.mpr ⟨hmem, rfl⟩]
    rfl
  · intro hget
    rcases Option.map_eq_some_iff.mp hget with ⟨⟨key, found⟩, hfound, rfl⟩
    have hkey : key = id := Keyed.key_of_get? hfound
    rw [← hkey]
    exact Keyed.mem_of_get? hfound

theorem mem_readFolderIds (workspaceId : Id) (role : Option Role)
    (grants : List (MatchingFolderGrant Id)) (id : Id) :
    id ∈ (folderScope workspaceId role folders grants).readFolderIds ↔
      (folderScope workspaceId role folders grants).permits (some id) .workflowRead = true := by
  rw [folderScope_permits]
  show id ∈ ((finalState role folders grants).snd.items.map Prod.fst).filter (fun _ =>
    role.any fun role => hasCapability role .workflowRead) ↔ _
  generalize (finalState role folders grants).snd = levels
  rw [permits.eq_def]
  cases role with
  | none => simp
  | some held =>
      cases hcapability : hasCapability held .workflowRead with
      | false => simp [hcapability]
      | true =>
          have hmem : (exists access, (id, access) ∈ levels.items) ↔
              exists access, (levels.get? id).map Prod.snd = some access := by
            simp only [mem_levels]
          cases hlevel : (levels.get? id).map Prod.snd with
          | none => simpa [hcapability, hlevel, isEditing] using hmem
          | some access =>
              cases access with
              | viewer => simpa [hcapability, hlevel, isEditing] using hmem
              | editor => simpa [hcapability, hlevel, isEditing] using hmem

theorem mem_editFolderIds (workspaceId : Id) (role : Option Role)
    (grants : List (MatchingFolderGrant Id)) (id : Id) :
    id ∈ (folderScope workspaceId role folders grants).editFolderIds ↔
      (folderScope workspaceId role folders grants).permits (some id) .workflowUpdate = true := by
  rw [folderScope_permits]
  show id ∈ ((finalState role folders grants).snd.items.filter (fun level =>
    level.snd == .editor && role.any fun role => hasCapability role .workflowUpdate)).map
      Prod.fst ↔ _
  generalize (finalState role folders grants).snd = levels
  rw [permits.eq_def]
  cases role with
  | none => simp
  | some held =>
      cases hcapability : hasCapability held .workflowUpdate with
      | false => simp [hcapability]
      | true =>
          have hmem := @mem_levels _ _ levels id .editor
          cases hlevel : (levels.get? id).map Prod.snd with
          | none => simpa [hcapability, hlevel, isEditing] using hmem
          | some access =>
              cases access with
              | viewer => simpa [hcapability, hlevel, isEditing] using hmem
              | editor => simpa [hcapability, hlevel, isEditing] using hmem

/-!
## Tightening

A folder may become restricted, and a grant may go or become a viewer's one.
-/

def restrictFolder (chosen : FolderFact Id -> Bool) (folder : FolderFact Id) : FolderFact Id :=
  if chosen folder then { folder with accessMode := .restricted } else folder

def WeakerGrants (grants others : List (MatchingFolderGrant Id)) : Prop :=
  forall grant, grant ∈ grants -> exists other, other ∈ others ∧
    other.folderId = grant.folderId ∧ (grant.access = .editor -> other.access = .editor)

omit [DecidableEq Id] in
theorem restrictFolder_id (chosen : FolderFact Id -> Bool) (folder : FolderFact Id) :
    (restrictFolder chosen folder).id = folder.id := by
  rw [restrictFolder]
  split <;> rfl

omit [DecidableEq Id] in
theorem restrictFolder_parentId (chosen : FolderFact Id -> Bool) (folder : FolderFact Id) :
    (restrictFolder chosen folder).parentId = folder.parentId := by
  rw [restrictFolder]
  split <;> rfl

omit [DecidableEq Id] in
theorem restricted_restrictFolder (chosen : FolderFact Id -> Bool) {folder : FolderFact Id}
    (h : folder.accessMode = .restricted) :
    (restrictFolder chosen folder).accessMode = .restricted := by
  rw [restrictFolder]
  split
  · rfl
  · exact h

omit [DecidableEq Id] in
theorem exists_chain_of_restricted {chosen : FolderFact Id -> Bool} {id : Id}
    {path : List (FolderFact Id)} (h : FolderChain (folders.map (restrictFolder chosen)) id path) :
    exists before, FolderChain folders id before ∧ path = before.map (restrictFolder chosen) := by
  induction h with
  | root hmem hroot =>
      rcases List.mem_map.mp hmem with ⟨folder, hfolder, rfl⟩
      rw [restrictFolder_parentId] at hroot
      rw [restrictFolder_id]
      exact ⟨[folder], ParentChain.root hfolder hroot, rfl⟩
  | child hmem hparent _ ih =>
      rcases List.mem_map.mp hmem with ⟨folder, hfolder, rfl⟩
      rcases ih with ⟨before, hchain, rfl⟩
      rw [restrictFolder_parentId] at hparent
      rw [restrictFolder_id]
      exact ⟨folder :: before, ParentChain.child hfolder hparent hchain, rfl⟩

omit [DecidableEq Id] in
theorem Permitted.of_tightened {role : Option Role} {chosen : FolderFact Id -> Bool}
    {grants others : List (MatchingFolderGrant Id)} (hgrants : WeakerGrants grants others)
    {folderId : Option Id} {capability : WorkflowResourceCapability}
    (h : Permitted role (folders.map (restrictFolder chosen)) grants folderId capability) :
    Permitted role folders others folderId capability := by
  rcases h with ⟨held, hrole, hcapability, hpaths⟩
  refine ⟨held, hrole, hcapability, ?_⟩
  intro id hid
  rcases hpaths id hid with ⟨path, hchain, hopen⟩
  rcases exists_chain_of_restricted hchain with ⟨before, hbefore, rfl⟩
  refine ⟨before, hbefore, hopen.imp_right fun hall folder hmem hmode => ?_⟩
  have hfound := hall _ (List.mem_map_of_mem hmem) (restricted_restrictFolder chosen hmode)
  rw [restrictFolder_id] at hfound
  constructor
  · rcases hfound.left with ⟨grant, hgrant, hfolder⟩
    rcases hgrants grant hgrant with ⟨other, hother, hsame, _⟩
    exact ⟨other, hother, hsame.trans hfolder⟩
  · intro hediting
    rcases hfound.right hediting with ⟨grant, hgrant, hfolder, heditor⟩
    rcases hgrants grant hgrant with ⟨other, hother, hsame, hkeeps⟩
    exact ⟨other, hother, hsame.trans hfolder, hkeeps heditor⟩

omit [DecidableEq Id] in
theorem Permitted.of_mem {role : Option Role} {others : List (FolderFact Id)}
    {grants otherGrants : List (MatchingFolderGrant Id)}
    (hfolders : forall folder, folder ∈ folders -> folder ∈ others)
    (hgrants : forall grant, grant ∈ grants -> grant ∈ otherGrants) {folderId : Option Id}
    {capability : WorkflowResourceCapability}
    (h : Permitted role folders grants folderId capability) :
    Permitted role others otherGrants folderId capability := by
  rcases h with ⟨held, hrole, hcapability, hpaths⟩
  refine ⟨held, hrole, hcapability, ?_⟩
  intro id hid
  rcases hpaths id hid with ⟨path, hchain, hopen⟩
  refine ⟨path, hchain.mono hfolders, hopen.imp_right fun hall folder hmem hmode => ?_⟩
  rcases hall folder hmem hmode with ⟨⟨grant, hgrant, hsame⟩, heditor⟩
  refine ⟨⟨grant, hgrants grant hgrant, hsame⟩, fun hediting => ?_⟩
  rcases heditor hediting with ⟨other, hother, hid', haccess⟩
  exact ⟨other, hgrants other hother, hid', haccess⟩

/-!
## Access is the intersection along the path
-/

theorem folder_access (workspaceId : Id) (role : Option Role) (folders : List (FolderFact Id))
    (hids : (folders.map FolderFact.id).Nodup) (grants : List (MatchingFolderGrant Id)) :
    let scope := folderScope workspaceId role folders grants
    (forall folderId capability, scope.permits folderId capability = true ↔
      Permitted role folders grants folderId capability) ∧
    (forall id path, FolderChain folders id path -> (path.map FolderFact.id).Nodup) ∧
    (forall folders' grants', folders'.Perm folders -> grants'.Perm grants ->
      forall folderId capability,
        (folderScope workspaceId role folders' grants').permits folderId capability =
          scope.permits folderId capability) ∧
    (forall (asked : List Id) id path,
      (ancestors (Keyed.ofList folders) (asked.foldl (fun paths id =>
        (ancestors (Keyed.ofList folders) paths id).snd) (finalState role folders grants).fst)
          id).fst = some path ↔ FolderChain folders id path) ∧
    (forall chosen grants', WeakerGrants grants' grants -> forall folderId capability,
      (folderScope workspaceId role (folders.map (restrictFolder chosen)) grants').permits folderId
          capability = true ->
        scope.permits folderId capability = true) ∧
    (forall id, id ∈ scope.readFolderIds ↔ scope.permits (some id) .workflowRead = true) ∧
    (forall id, id ∈ scope.editFolderIds ↔ scope.permits (some id) .workflowUpdate = true) ∧
    (forall id capability, id ∈ scope.deniedFolderIds capability ↔
      id ∈ folders.map FolderFact.id ∧ scope.permits (some id) capability = false) ∧
    forall compareIds tables matchingGrants readScope,
      readTransactionFolderScope compareIds tables workspaceId role matchingGrants =
        .ok readScope ->
      forall workflowId capability,
        workflowScopeSql tables workspaceId readScope workflowId capability =
          readScope.permits (folderOf tables workspaceId workflowId) capability := by
  dsimp only
  refine ⟨permits_iff hids workspaceId role grants, fun _ _ hchain => hchain.nodup hids, ?_, ?_,
    ?_, mem_readFolderIds workspaceId role grants, mem_editFolderIds workspaceId role grants,
    mem_deniedFolderIds workspaceId role folders grants, ?_⟩
  · intro folders' grants' hfolders hgrants folderId capability
    have hids' : (folders'.map FolderFact.id).Nodup :=
      (hfolders.map FolderFact.id).nodup_iff.mpr hids
    rw [Bool.eq_iff_iff, permits_iff hids, permits_iff hids']
    constructor
    · exact Permitted.of_mem (fun _ => hfolders.mem_iff.mp) fun _ => hgrants.mem_iff.mp
    · exact Permitted.of_mem (fun _ => hfolders.mem_iff.mpr) fun _ => hgrants.mem_iff.mpr
  · intro asked id path
    exact (ancestors_spec hids
      (ancestors_after hids asked (levelsOf_finalState hids role grants).paths) id).left path
  · intro chosen grants' hgrants folderId capability hpermit
    have hids' : ((folders.map (restrictFolder chosen)).map FolderFact.id).Nodup := by
      rw [List.map_map]
      have hsame : FolderFact.id ∘ restrictFolder chosen = FolderFact.id :=
        funext (restrictFolder_id chosen)
      rw [hsame]
      exact hids
    rw [permits_iff hids] at *
    exact ((permits_iff hids' workspaceId role grants' folderId capability).mp
      hpermit).of_tightened hgrants
  · intro compareIds tables matchingGrants readScope hread
    exact workflowScopeSql_eq hread

end

/-- A restricted folder under another one, of which an editor of the inner one sees nothing. -/
def sampleFolders : List (FolderFact Nat) :=
  [{ id := 1, parentId := none, accessMode := .restricted },
    { id := 2, parentId := some 1, accessMode := .restricted }]

/-- One workflow lies in the inner folder, another one in none. -/
def sampleTables : OrganizationTables Nat where
  folders := sampleFolders.map fun fact => { workspaceId := 0, fact }
  placements :=
    [{ workspaceId := 0, workflowId := 5, folderId := some 2 },
      { workspaceId := 0, workflowId := 6, folderId := none }]
  folderKeys := by decide
  placementKeys := by decide
  placedIn := by
    intro placement hplacement id hid
    refine
      ⟨{ workspaceId := 0, fact := { id := 2, parentId := some 1, accessMode := .restricted } },
      by simp [sampleFolders], ?_⟩
    rcases List.mem_cons.mp hplacement with rfl | hplacement
    · cases hid
      exact ⟨rfl, rfl⟩
    · rw [List.mem_singleton] at hplacement
      subst hplacement
      cases hid

theorem folder_access_sample :
    exists scope, readTransactionFolderScope compare sampleTables 0 (some .builder)
        [{ folderId := 2, access := .editor }] = .ok scope ∧
      ¬ Permitted (some .builder) sampleFolders [{ folderId := 2, access := .editor }] (some 2)
        .workflowRead ∧
      workflowScopeSql sampleTables 0 scope 5 .workflowRead = false ∧
      workflowScopeSql sampleTables 0 scope 6 .workflowRead = true := by
  have hrefused : (folderScope 0 (some .builder) sampleFolders
      [{ folderId := 2, access := .editor }]).permits (some 2) .workflowRead = false := by
    decide
  have hread : readTransactionFolderScope compare sampleTables 0 (some .builder)
      [{ folderId := 2, access := .editor }] = .ok (folderScope 0 (some .builder) sampleFolders
        [{ folderId := 2, access := .editor }]) := rfl
  rcases folder_access 0 (some .builder) sampleFolders (by decide)
    [{ folderId := 2, access := .editor }] with ⟨hpermits, _, _, _, _, _, _, _, hfilter⟩
  have hsql := hfilter compare sampleTables _ _ hread
  refine ⟨_, hread, fun hpermitted => ?_, ?_, ?_⟩
  · have hpermit := (hpermits (some 2) .workflowRead).mpr hpermitted
    rw [hrefused] at hpermit
    cases hpermit
  · rw [hsql 5 .workflowRead]
    exact hrefused
  · rw [hsql 6 .workflowRead]
    decide

end Folders
end Pertexo
