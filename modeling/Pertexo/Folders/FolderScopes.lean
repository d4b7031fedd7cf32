import Pertexo.Folders.FolderPolicy

/-!
# What a folder scope permits

## Chains of folders

A folder's chain leads over its parents to a folder at the root of the workspace.
-/

namespace Pertexo
namespace Folders

open Library

section

variable {Id : Type} [DecidableEq Id]

def FolderChain (folders : List (FolderFact Id)) (id : Id) (path : List (FolderFact Id)) : Prop :=
  ParentChain folders FolderFact.id FolderFact.parentId id path

variable {folders : List (FolderFact Id)}

theorem get?_folders (hids : (folders.map FolderFact.id).Nodup) {id : Id} {folder : FolderFact Id} :
    (Keyed.ofList folders : FolderMap Id).get? id = some folder ↔
      folder ∈ folders ∧ folder.id = id := by
  rw [Keyed.get?_eq_some_iff, Keyed.mem_ofList hids]

theorem climb_of_chain (hids : (folders.map FolderFact.id).Nodup) {id : Id}
    {rest : List (FolderFact Id)} (h : FolderChain folders id rest) {fuel : Nat}
    {path : List (FolderFact Id)} (hfuel : rest.length ≤ fuel)
    (hfresh : forall entry, entry ∈ path -> entry.id ∉ rest.map FolderFact.id) :
    climb (Keyed.ofList folders) fuel path id = some (path ++ rest) := by
  induction h generalizing fuel path with
  | @root folder hmem hroot =>
      obtain ⟨fuel, rfl⟩ : exists n, fuel = n + 1 := Nat.exists_eq_succ_of_ne_zero (by
        rintro rfl
        exact Nat.not_succ_le_zero _ hfuel)
      have hnew : path.any (fun entry => entry.id == folder.id) = false := by
        rw [List.any_eq_false]
        intro entry hentry hsame
        exact hfresh entry hentry (by simpa using hsame)
      rw [climb, (get?_folders hids).mpr ⟨hmem, rfl⟩]
      simp [hnew, hroot]
  | @child folder parent rest hmem hparent hrest ih =>
      obtain ⟨fuel, rfl⟩ : exists n, fuel = n + 1 := Nat.exists_eq_succ_of_ne_zero (by
        rintro rfl
        exact Nat.not_succ_le_zero _ hfuel)
      have hnew : path.any (fun entry => entry.id == folder.id) = false := by
        rw [List.any_eq_false]
        intro entry hentry hsame
        apply hfresh entry hentry
        rw [List.map_cons, List.mem_cons]
        exact Or.inl (beq_iff_eq.mp hsame)
      have hunrepeated : folder.id ∉ rest.map FolderFact.id := by
        have hnodup := (ParentChain.child hmem hparent hrest).nodup hids
        rw [List.map_cons, List.nodup_cons] at hnodup
        exact hnodup.left
      have hclimb := @ih fuel (path ++ [folder]) (Nat.le_of_succ_le_succ hfuel) (by
        intro entry hentry
        rcases List.mem_append.mp hentry with hearlier | hlast
        · intro hagain
          exact hfresh entry hearlier (List.mem_cons_of_mem _ hagain)
        · rw [List.mem_singleton.mp hlast]
          exact hunrepeated)
      rw [climb, (get?_folders hids).mpr ⟨hmem, rfl⟩]
      simp [hnew, hparent, hclimb]

theorem chain_of_climb (hids : (folders.map FolderFact.id).Nodup) {fuel : Nat}
    {path result : List (FolderFact Id)} {id : Id}
    (h : climb (Keyed.ofList folders) fuel path id = some result) :
    exists rest, result = path ++ rest ∧ FolderChain folders id rest := by
  induction fuel generalizing path id with
  | zero => cases h
  | succ fuel ih =>
      rw [climb] at h
      split at h
      · cases h
      · next folder hfolder =>
        rcases (get?_folders hids).mp hfolder with ⟨hmem, rfl⟩
        split at h
        · cases h
        · split at h
          · next hroot =>
            cases h
            exact ⟨[folder], rfl, ParentChain.root hmem hroot⟩
          · next parent hparent =>
            rcases ih h with ⟨rest, rfl, hrest⟩
            exact ⟨folder :: rest, by simp, ParentChain.child hmem hparent hrest⟩

/-- The fuel is enough: the loop finds a path exactly where a chain ends at a root. -/
theorem climb_eq_some_iff (hids : (folders.map FolderFact.id).Nodup) {id : Id}
    {path : List (FolderFact Id)} :
    climb (Keyed.ofList folders)
        ((Keyed.ofList folders : FolderMap Id).items.length + 1) [] id = some path ↔
      FolderChain folders id path := by
  constructor
  · intro h
    rcases chain_of_climb hids h with ⟨rest, rfl, hchain⟩
    exact hchain
  · intro h
    have hlength := ParentChain.length_le hids h
    rw [Keyed.ofList_items hids]
    exact climb_of_chain hids h (by omega) (fun _ hentry => nomatch hentry)

/-!
## Cached paths
-/

def PathsHold (folders : List (FolderFact Id)) (paths : PathMap Id) : Prop :=
  forall id path, paths.get? id = some (id, path) -> FolderChain folders id path

theorem pathsHold_empty : PathsHold folders Keyed.empty := by
  intro id path h
  exact absurd (Keyed.mem_of_get? h) (Keyed.not_mem_empty _)

/-- Whatever has been cached, the answer is the chain of the folder. -/
theorem ancestors_spec (hids : (folders.map FolderFact.id).Nodup) {paths : PathMap Id}
    (hpaths : PathsHold folders paths) (id : Id) :
    (forall path, (ancestors (Keyed.ofList folders) paths id).fst = some path ↔
        FolderChain folders id path) ∧
      PathsHold folders (ancestors (Keyed.ofList folders) paths id).snd := by
  rw [ancestors]
  split
  · next cached hcached =>
    rcases cached with ⟨key, found⟩
    have hkey : key = id := Keyed.key_of_get? hcached
    subst hkey
    have hchain := hpaths _ _ hcached
    refine ⟨fun path => ?_, hpaths⟩
    constructor
    · intro h
      cases h
      exact hchain
    · intro h
      rw [hchain.unique hids h]
  · split
    · next hnone =>
      refine ⟨fun path => ?_, hpaths⟩
      constructor
      · intro h
        cases h
      · intro h
        rw [(climb_eq_some_iff hids).mpr h] at hnone
        cases hnone
    · next found hfound =>
      have hchain := (climb_eq_some_iff hids).mp hfound
      constructor
      · intro path
        constructor
        · intro h
          cases h
          exact hchain
        · intro h
          rw [hchain.unique hids h]
      · intro other path hget
        rw [Keyed.get?_set] at hget
        split at hget
        · next hother =>
          cases hget
          exact hchain
        · exact hpaths other path hget

theorem ancestors_after (hids : (folders.map FolderFact.id).Nodup) (asked : List Id)
    {paths : PathMap Id} (hpaths : PathsHold folders paths) :
    PathsHold folders (asked.foldl (fun paths id =>
      (ancestors (Keyed.ofList folders) paths id).snd) paths) := by
  induction asked generalizing paths with
  | nil => exact hpaths
  | cons id rest ih => exact ih (ancestors_spec hids hpaths id).right

/-!
## Matching grants
-/

def HasGrant (grants : List (MatchingFolderGrant Id)) (id : Id) : Prop :=
  exists grant, grant ∈ grants ∧ grant.folderId = id

def HasEditorGrant (grants : List (MatchingFolderGrant Id)) (id : Id) : Prop :=
  exists grant, grant ∈ grants ∧ grant.folderId = id ∧ grant.access = .editor

theorem matchingGrant_get? (matching : GrantMap Id) (grant : MatchingFolderGrant Id) (id : Id) :
    ((matchingGrant matching grant).get? id).map MatchingFolderGrant.access =
      if id = grant.folderId ∧
          (matching.get? id).map MatchingFolderGrant.access ≠ some .editor then
        some grant.access
      else (matching.get? id).map MatchingFolderGrant.access := by
  rw [matchingGrant]
  by_cases hid : id = grant.folderId
  · subst hid
    by_cases heditor : (matching.get? grant.folderId).map MatchingFolderGrant.access = some .editor
    · simp [heditor]
    · simp [heditor, Keyed.get?_set]
  · split
    · rw [Keyed.get?_set_of_ne _ hid, if_neg (fun h => hid h.left)]
    · rw [if_neg (fun h => hid h.left)]

theorem foldl_matchingGrant (grants : List (MatchingFolderGrant Id)) (matching : GrantMap Id)
    (id : Id) :
    let found := ((grants.foldl matchingGrant matching).get? id).map MatchingFolderGrant.access
    (found = some .editor ↔
        (matching.get? id).map MatchingFolderGrant.access = some .editor ∨
          HasEditorGrant grants id) ∧
      (found = none ↔ (matching.get? id).map MatchingFolderGrant.access = none ∧
        ¬ HasGrant grants id) := by
  induction grants generalizing matching with
  | nil => simp [HasEditorGrant, HasGrant]
  | cons grant rest ih =>
      dsimp only at ih ⊢
      rw [List.foldl_cons, (ih _).left, (ih _).right, matchingGrant_get?]
      by_cases hid : id = grant.folderId
      · subst hid
        by_cases heditor :
          (matching.get? grant.folderId).map MatchingFolderGrant.access = some .editor
        · simp [heditor, HasEditorGrant, HasGrant]
        · simp [heditor, HasEditorGrant, HasGrant]
      · have hne : ¬ grant.folderId = id := fun h => hid h.symm
        simp [hid, hne, HasEditorGrant, HasGrant]

theorem grantMap_spec (grants : List (MatchingFolderGrant Id)) (id : Id) :
    let found := ((grants.foldl matchingGrant Keyed.empty).get? id).map MatchingFolderGrant.access
    (found = some .editor ↔ HasEditorGrant grants id) ∧ (found = none ↔ ¬ HasGrant grants id) := by
  have hempty : ((Keyed.empty : GrantMap Id).get? id).map MatchingFolderGrant.access = none := rfl
  have hspec := foldl_matchingGrant grants Keyed.empty id
  dsimp only at hspec ⊢
  rw [hempty] at hspec
  simpa using hspec

/-!
## Access along a chain
-/

omit [DecidableEq Id] in
theorem HasEditorGrant.hasGrant {grants : List (MatchingFolderGrant Id)} {id : Id}
    (h : HasEditorGrant grants id) : HasGrant grants id := by
  rcases h with ⟨grant, hmem, hid, _⟩
  exact ⟨grant, hmem, hid⟩

theorem accessAlong_spec (administrator : Bool) (grants : List (MatchingFolderGrant Id))
    (path : List (FolderFact Id)) (access : FolderAccess) :
    let found := accessAlong administrator (grants.foldl matchingGrant Keyed.empty) path access
    (found = some .editor ↔ access = .editor ∧ (administrator = true ∨
        forall folder, folder ∈ path -> folder.accessMode = .restricted ->
          HasEditorGrant grants folder.id)) ∧
      (found = none ↔ ¬ (administrator = true ∨
        forall folder, folder ∈ path -> folder.accessMode = .restricted ->
          HasGrant grants folder.id)) := by
  induction path generalizing access with
  | nil => simp [accessAlong]
  | cons folder rest ih =>
      dsimp only at ih ⊢
      rw [accessAlong]
      cases administrator with
      | true => simpa using ih access
      | false =>
          cases hmode : folder.accessMode with
          | workspace => simpa [hmode] using ih access
          | restricted =>
              have hgrant := grantMap_spec grants folder.id
              dsimp only at hgrant
              rw [if_neg (by simp)]
              split
              · next hnone =>
                have hmissing := hgrant.right.mp hnone
                have hno : ¬ HasEditorGrant grants folder.id := fun h => hmissing h.hasGrant
                simp [hmode, hmissing, hno]
              · next hviewer =>
                have hno : ¬ HasEditorGrant grants folder.id := by
                  rw [← hgrant.left, hviewer]
                  simp
                have hsome : HasGrant grants folder.id := by
                  by_contra hmissing
                  rw [hgrant.right.mpr hmissing] at hviewer
                  cases hviewer
                have hrest := ih .viewer
                simpa [hmode, hno, hsome] using hrest
              · next heditor =>
                have hyes := hgrant.left.mp heditor
                have hrest := ih access
                simpa [hmode, hyes, hyes.hasGrant] using hrest

/-!
## Levels
-/

/-- The role opens the restricted folders of a path, for reading or for editing too. -/
def OpensPath (role : Role) (grants : List (MatchingFolderGrant Id)) (path : List (FolderFact Id))
    (editing : Bool) : Prop :=
  role ∈ RESOURCE_ADMINISTRATORS ∨
    forall folder, folder ∈ path -> folder.accessMode = .restricted ->
      HasGrant grants folder.id ∧ (editing = true -> HasEditorGrant grants folder.id)

/-- The level of a folder, as the loop over folders finds it. -/
def levelOf (role : Option Role) (folders : List (FolderFact Id))
    (grants : List (MatchingFolderGrant Id)) (id : Id) : Option FolderAccess :=
  match (ancestors (Keyed.ofList folders) Keyed.empty id).fst with
  | none => none
  | some path =>
      if role.isNone then none
      else
        accessAlong (isAdministrator role) (grants.foldl matchingGrant Keyed.empty) path .editor

structure LevelsOf (role : Option Role) (folders : List (FolderFact Id))
    (grants : List (MatchingFolderGrant Id)) (done : List Id) (state : PathMap Id × LevelMap Id) :
    Prop where
  paths : PathsHold folders state.fst
  levels : forall id, (state.snd.get? id).map Prod.snd =
    if id ∈ done then levelOf role folders grants id else none

theorem ancestors_fst (hids : (folders.map FolderFact.id).Nodup) {paths : PathMap Id}
    (hpaths : PathsHold folders paths) (id : Id) :
    (ancestors (Keyed.ofList folders) paths id).fst =
      (ancestors (Keyed.ofList folders) Keyed.empty id).fst := by
  apply Option.ext
  intro path
  rw [(ancestors_spec hids hpaths id).left, (ancestors_spec hids pathsHold_empty id).left]

variable {role : Option Role} {grants : List (MatchingFolderGrant Id)}

theorem LevelsOf.skip {done : List Id} {state : PathMap Id × LevelMap Id}
    (h : LevelsOf role folders grants done state) {paths : PathMap Id}
    (hpaths : PathsHold folders paths) {id : Id} (hlevel : levelOf role folders grants id = none) :
    LevelsOf role folders grants (done ++ [id]) (paths, state.snd) where
  paths := hpaths
  levels := by
    intro other
    rw [h.levels other]
    by_cases hother : other = id
    · simp [hother, hlevel]
    · simp [hother]

theorem LevelsOf.addLevel (hids : (folders.map FolderFact.id).Nodup) {done : List Id}
    {state : PathMap Id × LevelMap Id} (h : LevelsOf role folders grants done state)
    (folder : FolderFact Id) :
    LevelsOf role folders grants (done ++ [folder.id])
      (addLevel role (Keyed.ofList folders) (grants.foldl matchingGrant Keyed.empty) state
        folder) := by
  have hfst := ancestors_fst hids h.paths folder.id
  have hsnd := (ancestors_spec hids h.paths folder.id).right
  have hlevel : levelOf role folders grants folder.id =
      match (ancestors (Keyed.ofList folders) state.fst folder.id).fst with
      | none => none
      | some path =>
          if role.isNone then none
          else
            accessAlong (isAdministrator role) (grants.foldl matchingGrant Keyed.empty) path
              .editor := by
    rw [hfst]
    rfl
  rw [Folders.addLevel]
  generalize ancestors (Keyed.ofList folders) state.fst folder.id = found at hsnd hlevel ⊢
  rcases found with ⟨path, paths⟩
  cases path with
  | none => exact h.skip hsnd hlevel
  | some path =>
      dsimp only at hlevel ⊢
      split
      · next hnone =>
        rw [if_pos hnone] at hlevel
        exact h.skip hsnd hlevel
      · next hsome =>
        rw [if_neg hsome] at hlevel
        split
        · next hnone =>
          rw [hnone] at hlevel
          exact h.skip hsnd hlevel
        · next access haccess =>
          rw [haccess] at hlevel
          refine { paths := hsnd, levels := ?_ }
          intro other
          rw [Keyed.get?_set]
          by_cases hother : other = folder.id
          · simp [hother, hlevel]
          · simp [hother, h.levels other]

theorem levelsOf_foldl (hids : (folders.map FolderFact.id).Nodup) (rest : List (FolderFact Id))
    {done : List Id} {state : PathMap Id × LevelMap Id}
    (h : LevelsOf role folders grants done state) :
    LevelsOf role folders grants (done ++ rest.map FolderFact.id)
      (rest.foldl (addLevel role (Keyed.ofList folders)
        (grants.foldl matchingGrant Keyed.empty)) state) := by
  induction rest generalizing done state with
  | nil => simpa using h
  | cons folder rest ih =>
      have hrest := ih (h.addLevel hids folder)
      rw [List.append_assoc] at hrest
      exact hrest

/-- The state in which the loop over folders ends. -/
def finalState (role : Option Role) (folders : List (FolderFact Id))
    (grants : List (MatchingFolderGrant Id)) : PathMap Id × LevelMap Id :=
  folders.foldl (addLevel role (Keyed.ofList folders) (grants.foldl matchingGrant Keyed.empty))
    (Keyed.empty, Keyed.empty)

theorem levelsOf_finalState (hids : (folders.map FolderFact.id).Nodup) (role : Option Role)
    (grants : List (MatchingFolderGrant Id)) :
    LevelsOf role folders grants (folders.map FolderFact.id) (finalState role folders grants) := by
  have hstart : LevelsOf role folders grants [] (Keyed.empty, Keyed.empty) :=
    { paths := pathsHold_empty, levels := fun id => by rw [if_neg List.not_mem_nil]; rfl }
  exact levelsOf_foldl hids folders hstart

theorem mem_ids_of_levelOf (hids : (folders.map FolderFact.id).Nodup) {id : Id}
    {access : FolderAccess} (h : levelOf role folders grants id = some access) :
    id ∈ folders.map FolderFact.id := by
  rw [levelOf] at h
  split at h
  · cases h
  · next path hpath =>
    have hchain := ((ancestors_spec hids pathsHold_empty id).left path).mp hpath
    rcases hchain.exists_cons with ⟨folder, rest, rfl, hmem, rfl⟩
    exact List.mem_map_of_mem hmem

theorem get?_finalState (hids : (folders.map FolderFact.id).Nodup) (role : Option Role)
    (grants : List (MatchingFolderGrant Id)) (id : Id) :
    ((finalState role folders grants).snd.get? id).map Prod.snd =
      levelOf role folders grants id := by
  rw [(levelsOf_finalState hids role grants).levels id]
  split
  · rfl
  · next hnot =>
    cases hlevel : levelOf role folders grants id with
    | none => rfl
    | some access => exact absurd (mem_ids_of_levelOf hids hlevel) hnot

theorem isAdministrator_some (role : Role) :
    isAdministrator (some role) = true ↔ role ∈ RESOURCE_ADMINISTRATORS := by
  simp [isAdministrator]

/-- An editor's level opens the whole chain for editing, any level opens it for reading. -/
theorem levelOf_spec (hids : (folders.map FolderFact.id).Nodup) (role : Role)
    (grants : List (MatchingFolderGrant Id)) (id : Id) :
    (levelOf (some role) folders grants id = some .editor ↔
        exists path, FolderChain folders id path ∧ OpensPath role grants path true) ∧
      (levelOf (some role) folders grants id ≠ none ↔
        exists path, FolderChain folders id path ∧ OpensPath role grants path false) := by
  have hancestors := (ancestors_spec hids pathsHold_empty id).left
  rw [levelOf]
  split
  · next hnone =>
    have hno : forall path, ¬ FolderChain folders id path := by
      intro path hchain
      rw [(hancestors path).mpr hchain] at hnone
      cases hnone
    constructor
    · constructor
      · intro h
        cases h
      · rintro ⟨path, hchain, _⟩
        exact absurd hchain (hno path)
    · constructor
      · intro h
        exact absurd rfl h
      · rintro ⟨path, hchain, _⟩
        exact absurd hchain (hno path)
  · next path hpath =>
    have hchain := (hancestors path).mp hpath
    have honly : forall {p : List (FolderFact Id) -> Prop},
        (exists path, FolderChain folders id path ∧ p path) ↔ p path := by
      intro p
      constructor
      · rintro ⟨other, hother, hp⟩
        rwa [← hother.unique hids hchain]
      · intro hp
        exact ⟨path, hchain, hp⟩
    have hspec := accessAlong_spec (isAdministrator (some role)) grants path .editor
    dsimp only at hspec
    rw [if_neg (by simp), honly, honly, OpensPath, OpensPath, hspec.left]
    constructor
    · rw [isAdministrator_some]
      constructor
      · rintro ⟨_, hopen⟩
        refine hopen.imp_right fun hall folder hmem hmode => ?_
        exact ⟨(hall folder hmem hmode).hasGrant, fun _ => hall folder hmem hmode⟩
      · intro hopen
        exact ⟨rfl, hopen.imp_right fun hall folder hmem hmode =>
          (hall folder hmem hmode).right rfl⟩
    · rw [Ne, hspec.right, not_not, isAdministrator_some]
      simp

/-!
## The answer of a scope
-/

/-- What a scope is for: the role, and every restricted folder on the way to the root. -/
def Permitted (role : Option Role) (folders : List (FolderFact Id))
    (grants : List (MatchingFolderGrant Id)) (folderId : Option Id)
    (capability : WorkflowResourceCapability) : Prop :=
  exists held, role = some held ∧ hasCapability held capability = true ∧
    forall id, folderId = some id ->
      exists path, FolderChain folders id path ∧ OpensPath held grants path (isEditing capability)

theorem folderScope_permits (workspaceId : Id) (role : Option Role)
    (folders : List (FolderFact Id)) (grants : List (MatchingFolderGrant Id)) :
    (folderScope workspaceId role folders grants).permits =
      permits role (finalState role folders grants).snd := rfl

theorem permits_iff (hids : (folders.map FolderFact.id).Nodup) (workspaceId : Id)
    (role : Option Role) (grants : List (MatchingFolderGrant Id)) (folderId : Option Id)
    (capability : WorkflowResourceCapability) :
    (folderScope workspaceId role folders grants).permits folderId capability = true ↔
      Permitted role folders grants folderId capability := by
  rw [folderScope_permits, permits.eq_def, Permitted]
  cases role with
  | none => simp
  | some held =>
      dsimp only
      cases hcapability : hasCapability held capability with
      | false => simp [hcapability]
      | true =>
          cases folderId with
          | none => simp [hcapability]
          | some id =>
              have hspec := levelOf_spec hids held grants id
              rw [if_neg (by decide)]
              dsimp only
              rw [get?_finalState hids]
              cases hlevel : levelOf (some held) folders grants id with
              | none =>
                  rw [hlevel] at hspec
                  cases hediting : isEditing capability with
                  | true => simpa [hcapability, hediting] using hspec.left
                  | false => simpa [hcapability, hediting] using hspec.right
              | some access =>
                  rw [hlevel] at hspec
                  cases hediting : isEditing capability with
                  | true =>
                      cases access with
                      | editor => simpa [hcapability, hediting] using hspec.left
                      | viewer => simpa [hcapability, hediting] using hspec.left
                  | false =>
                      cases access with
                      | editor => simpa [hcapability, hediting] using hspec.right
                      | viewer => simpa [hcapability, hediting] using hspec.right

end

end Folders
end Pertexo
