import Pertexo.Bodies.GraphStructure

/-!
# Where the validation reports a body

## Paths
-/

namespace Pertexo
namespace Bodies

open Library
open Portability
open Values

def scopeParts (id : ScriptString) : IssuePath :=
  [scriptString "nodes", id, scriptString "structured", scriptString "body"]

/-- The path of the level that a scope names. -/
def levelPath (scope : ScopePath) : IssuePath :=
  rootPath ++ scope.flatMap scopeParts

theorem levelPath_body (scope : ScopePath) (id : ScriptString) :
    pathParts (pathParts (nodePath (levelPath scope) id) ["structured"]) ["body"] =
      levelPath (scope ++ [id]) := by
  simp [pathParts, nodePath, levelPath, scopeParts]

theorem levelPath_injective {scope other : ScopePath} (h : levelPath scope = levelPath other) :
    scope = other := by
  have hparts := List.append_cancel_left h
  clear h
  induction scope generalizing other with
  | nil =>
      cases other with
      | nil => rfl
      | cons id rest => cases hparts
  | cons id rest ih =>
      cases other with
      | nil => cases hparts
      | cons id' rest' =>
          rw [List.flatMap_cons, List.flatMap_cons] at hparts
          have hboth := List.append_inj hparts rfl
          rw [ih hboth.right]
          injection hboth.left with _ hinner
          injection hinner with hid _
          rw [hid]

/-!
## Issues of bodies

Only the body of a For Each is reported empty or of invalid topology, and only the
links of a level dangle.
-/

def IsBodyIssue (issue : GraphIssue) : Prop :=
  issue.code = .danglingEdge ∨
    issue.code = .invalidStructuredBody ∧
      (issue.message = emptyMessage ∨ issue.message = topologyMessage)

theorem body_messages :
    emptyMessage ≠ topologyMessage ∧
      forall message, message ∈
          [scriptString "structured input must reference a port on the nearest body",
            scriptString "node output mappings cannot cross a structured-body seam",
            scriptString ("core.foreach@1 must own exactly one For Each body and no other " ++
              "definition may own one"),
            scriptString "For Each body ports must be exactly item, ordinal, and result"] ->
        message ≠ emptyMessage ∧ message ≠ topologyMessage := by
  -- the fifteenth unit of each message tells it apart
  have hempty : emptyMessage[14]? = some 0x6D := by
    rw [emptyMessage, scriptString_ofList]
    decide
  have htopology : topologyMessage[14]? = some 0x72 := by
    rw [topologyMessage, scriptString_append, scriptString_ofList, scriptString_ofList]
    decide
  have hothers : ([scriptString "structured input must reference a port on the nearest body",
      scriptString "node output mappings cannot cross a structured-body seam",
      scriptString ("core.foreach@1 must own exactly one For Each body and no other " ++
        "definition may own one"),
      scriptString "For Each body ports must be exactly item, ordinal, and result"].all
        fun message =>
        message[14]? != some 0x6D && message[14]? != some 0x72) = true := by
    rw [scriptString_append, scriptString_ofList, scriptString_ofList, scriptString_ofList,
      scriptString_ofList, scriptString_ofList]
    decide
  constructor
  · intro hsame
    rw [hsame, htopology] at hempty
    exact absurd hempty (by decide)
  · intro message hmessage
    have hunit := List.all_eq_true.mp hothers message hmessage
    rw [Bool.and_eq_true, bne_iff_ne, bne_iff_ne] at hunit
    constructor
    · intro hsame
      exact hunit.left (hsame ▸ hempty)
    · intro hsame
      exact hunit.right (hsame ▸ htopology)

section

variable {Number : Type} {rules : StructureRules Number} {path : IssuePath}

def danglingIssue (path : IssuePath) (edge : WorkflowEdge) : GraphIssue where
  code := .danglingEdge
  path := path ++ [scriptString "edges", edge.id]
  message := scriptString "ordinary edges cannot cross a structured-body seam"

def Dangles (level : GraphLevel Number) (edge : WorkflowEdge) : Prop :=
  edge.source.nodeId ∉ level.ids ∨ edge.target.nodeId ∉ level.ids

theorem not_body_of_code {issue : GraphIssue} (h : issue.code ≠ .danglingEdge)
    (h' : issue.code ≠ .invalidStructuredBody) : ¬ IsBodyIssue issue := by
  rintro (hdangling | ⟨hbody, _⟩)
  · exact h hdangling
  · exact h' hbody

theorem not_body_of_message {issue : GraphIssue} (h : issue.code ≠ .danglingEdge)
    (hmessage : issue.message ≠ emptyMessage ∧ issue.message ≠ topologyMessage) :
    ¬ IsBodyIssue issue := by
  rintro (hdangling | ⟨_, hempty | htopology⟩)
  · exact h hdangling
  · exact hmessage.left hempty
  · exact hmessage.right htopology

theorem countIssues_not_body {state : StructureState} {issue : GraphIssue}
    (h : issue ∈ countIssues rules path state) : ¬ IsBodyIssue issue := by
  rw [countIssues] at h
  split at h
  · rw [List.mem_singleton.mp h]
    exact not_body_of_code (fun h => nomatch h) (fun h => nomatch h)
  · cases h

theorem duplicateNodes_not_body {seen ids : List ScriptString} {issue : GraphIssue}
    (h : issue ∈ duplicateNodes seen path ids) : ¬ IsBodyIssue issue := by
  induction ids generalizing seen with
  | nil => cases h
  | cons id rest ih =>
      rw [duplicateNodes] at h
      rcases List.mem_append.mp h with hfirst | hlater
      · split at hfirst
        · rw [List.mem_singleton.mp hfirst]
          exact not_body_of_code (fun h => nomatch h) (fun h => nomatch h)
        · cases hfirst
      · exact ih hlater

theorem mappingSourceIssues_not_body {allNodeIds ports : List ScriptString}
    {level : GraphLevel Number} {id : ScriptString} {source : ValueSource Number}
    {issue : GraphIssue} (h : issue ∈ mappingSourceIssues allNodeIds level ports id path source) :
    ¬ IsBodyIssue issue := by
  cases source with
  | structuredInput port text =>
      rw [mappingSourceIssues] at h
      split at h
      · cases h
      · rw [List.mem_singleton.mp h]
        exact not_body_of_message (fun h => nomatch h) (body_messages.right _ (by simp))
  | nodeOutput nodeId text =>
      rw [mappingSourceIssues] at h
      split at h
      · rw [List.mem_singleton.mp h]
        exact not_body_of_message (fun h => nomatch h) (body_messages.right _ (by simp))
      · split at h
        · rw [List.mem_singleton.mp h]
          exact not_body_of_code (fun h => nomatch h) (fun h => nomatch h)
        · cases h
  | workspaceVariable name => cases h
  | literal value => cases h
  | runInput text => cases h
  | nodeFailure nodeId text => cases h
  | expression text => cases h

theorem validateMappings_not_body {allNodeIds ports : List ScriptString}
    {level : GraphLevel Number} {issue : GraphIssue}
    (h : issue ∈ validateMappings rules allNodeIds level path ports) : ¬ IsBodyIssue issue := by
  rcases List.mem_flatMap.mp h with ⟨node, _, h⟩
  rcases List.mem_append.mp h with hpredecessors | hmappings
  · rw [predecessorIssues] at hpredecessors
    split at hpredecessors
    · rw [List.mem_singleton.mp hpredecessors]
      exact not_body_of_code (fun h => nomatch h) (fun h => nomatch h)
    · cases hpredecessors
  · rcases List.mem_flatMap.mp hmappings with ⟨mapping, _, h⟩
    rcases List.mem_append.mp h with hpath | hsource
    · rw [mappingPathIssues] at hpath
      split at hpath
      · cases hpath
      · split at hpath
        · cases hpath
        · rw [List.mem_singleton.mp hpath]
          exact not_body_of_code (fun h => nomatch h) (fun h => nomatch h)
    · exact mappingSourceIssues_not_body hsource

def NoBodyIssues (found : List GraphIssue × List ScriptString) : Prop :=
  forall issue, issue ∈ found.fst -> ¬ IsBodyIssue issue

theorem visit_not_body {adjacency : ScriptString -> List ScriptString} {depth : Nat}
    {visiting : List ScriptString} {found : List GraphIssue × List ScriptString}
    {id : ScriptString} (hfound : NoBodyIssues found) :
    NoBodyIssues (visit adjacency path depth visiting found id) := by
  induction depth generalizing visiting found id with
  | zero => exact hfound
  | succ depth ih =>
      rcases found with ⟨issues, visited⟩
      rw [visit]
      split
      · intro issue hissue
        rcases List.mem_append.mp hissue with hold | hnew
        · exact hfound issue hold
        · rw [List.mem_singleton.mp hnew]
          exact not_body_of_code (fun h => nomatch h) (fun h => nomatch h)
      · split
        · exact hfound
        · have hinner : NoBodyIssues ((adjacency id).foldl
              (fun found next => visit adjacency path depth (visiting ++ [id]) found next)
              (issues, visited)) :=
            List.foldlRecOn (motive := NoBodyIssues) _ _ hfound (fun _ hkept _ _ => ih hkept)
          exact hinner

theorem validateAcyclic_not_body {level : GraphLevel Number} {issue : GraphIssue}
    (h : issue ∈ validateAcyclic level path) : ¬ IsBodyIssue issue := by
  have hvisited : NoBodyIssues ((sortWith compareUnits
      (Keyed.ofList level.ids : Keyed ScriptString id).items).foldl
        (fun found id => visit (levelAdjacency level) path (level.ids.length + 1) [] found id)
        ([], [])) :=
    List.foldlRecOn (motive := NoBodyIssues) _ _ (fun _ hnone => absurd hnone List.not_mem_nil)
      (fun _ hkept _ _ => visit_not_body hkept)
  exact hvisited issue h

theorem mem_validateEdges {level : GraphLevel Number} {seen : List ScriptString}
    {edges : List WorkflowEdge} {issue : GraphIssue} (hbody : IsBodyIssue issue) :
    issue ∈ validateEdges level path seen edges ↔
      exists edge, edge ∈ edges ∧ Dangles level edge ∧ issue = danglingIssue path edge := by
  induction edges generalizing seen with
  | nil =>
      constructor
      · intro h
        cases h
      · rintro ⟨_, hnone, _⟩
        cases hnone
  | cons edge rest ih =>
      have hduplicate : issue ∉ (if seen.contains edge.id then
          [{ code := GraphIssueCode.duplicateEdgeId, path := pathParts path ["edges"]
             message := scriptString "duplicate edge " ++ edge.id }]
             else [] : List GraphIssue) := by
        intro h
        split at h
        · rw [List.mem_singleton.mp h] at hbody
          exact absurd hbody (not_body_of_code (fun h => nomatch h) (fun h => nomatch h))
        · cases h
      have hdangles : (!level.ids.contains edge.source.nodeId ||
          !level.ids.contains edge.target.nodeId) = true ↔ Dangles level edge := by
        simp [Dangles]
      rw [validateEdges, List.mem_append, List.mem_append, ih]
      constructor
      · rintro ((hfirst | hsecond) | ⟨other, hother, hfound⟩)
        · exact absurd hfirst hduplicate
        · split at hsecond
          · next hcrosses =>
            exact ⟨edge, List.mem_cons_self .., hdangles.mp hcrosses, List.mem_singleton.mp hsecond⟩
          · cases hsecond
        · exact ⟨other, List.mem_cons_of_mem _ hother, hfound⟩
      · rintro ⟨other, hother, hcrosses, hissue⟩
        rcases List.mem_cons.mp hother with rfl | hlater
        · left
          right
          rw [if_pos (hdangles.mpr hcrosses)]
          exact List.mem_singleton.mpr hissue
        · exact Or.inr ⟨other, hlater, hcrosses, hissue⟩

/-- What a validation says about the links of a level. -/
def ReportsLinks (level : GraphLevel Number × ScopePath) (issue : GraphIssue) : Prop :=
  exists edge, edge ∈ level.fst.edges ∧ Dangles level.fst edge ∧
    issue = danglingIssue (levelPath level.snd) edge

def ReportsBody (level : GraphLevel Number × ScopePath) (issue : GraphIssue) : Prop :=
  issue ∈ bodyReport level.fst (levelPath level.snd) ∨ ReportsLinks level issue

theorem mem_validateLevel {allNodeIds ports : List ScriptString} {level : GraphLevel Number}
    {scope : ScopePath} {state : StructureState} {issue : GraphIssue}
    (hbody : IsBodyIssue issue) :
    issue ∈ (validateLevel rules allNodeIds level (levelPath scope) ports state).issues ↔
      ReportsLinks (level, scope) issue := by
  have hedges := @mem_validateEdges _ (levelPath scope) level [] level.edges issue hbody
  simp only [validateLevel, List.mem_append]
  constructor
  · rintro ((((hcount | hduplicate) | hmappings) | hlinks) | hcycle)
    · exact absurd hbody (countIssues_not_body hcount)
    · exact absurd hbody (duplicateNodes_not_body hduplicate)
    · exact absurd hbody (validateMappings_not_body hmappings)
    · exact hedges.mp hlinks
    · exact absurd hbody (validateAcyclic_not_body hcycle)
  · intro h
    exact Or.inl (Or.inr (hedges.mpr h))

section

variable [GraphNumber Number]

omit [GraphNumber Number] in
theorem retryIssues_not_body {fields : NodeFields Number} {issue : GraphIssue}
    (h : issue ∈ retryIssues rules path fields) : ¬ IsBodyIssue issue := by
  rw [retryIssues] at h
  split at h
  · rw [List.mem_singleton.mp h]
    exact not_body_of_code (fun h => nomatch h) (fun h => nomatch h)
  · cases h

theorem ownershipIssues_not_body {fields : NodeFields Number} {structured : Bool}
    {issue : GraphIssue} (h : issue ∈ ownershipIssues path fields structured) :
    ¬ IsBodyIssue issue := by
  rw [ownershipIssues] at h
  split at h
  · rw [List.mem_singleton.mp h]
    exact not_body_of_message (fun h => nomatch h) (body_messages.right _ (by simp))
  · cases h

theorem validateLoopLimits_not_body {loop : ForEachFields Number} {issue : GraphIssue}
    (h : issue ∈ validateLoopLimits rules path loop) : ¬ IsBodyIssue issue := by
  rw [validateLoopLimits] at h
  split at h
  · rw [List.mem_singleton.mp h]
    exact not_body_of_code (fun h => nomatch h) (fun h => nomatch h)
  · cases h

omit [GraphNumber Number] in
theorem portIssues_not_body {loop : ForEachFields Number} {issue : GraphIssue}
    (h : issue ∈ portIssues path loop) : ¬ IsBodyIssue issue := by
  rw [portIssues] at h
  split at h
  · rw [List.mem_singleton.mp h]
    exact not_body_of_message (fun h => nomatch h) (body_messages.right _ (by simp))
  · cases h

mutual

/-- A validation of a step reports on the levels that a walk visits. -/
theorem mem_validateStructuredNode {allNodeIds : List ScriptString} {scope : ScopePath}
    {issue : GraphIssue} (hbody : IsBodyIssue issue) :
    (node : WorkflowNode Number) -> (state : StructureState) ->
      (issue ∈ (validateStructuredNode rules allNodeIds (levelPath scope) node state).issues ↔
        exists level, level ∈ walkNode scope node ∧ ReportsBody level issue)
  | .step fields, state => by
      rw [validateStructuredNode, walkNode]
      constructor
      · intro h
        rcases List.mem_append.mp h with hretry | howns
        · exact absurd hbody (retryIssues_not_body hretry)
        · exact absurd hbody (ownershipIssues_not_body howns)
      · rintro ⟨_, hnone, _⟩
        cases hnone
  | .structured fields loop body, state => by
      have hown := fun state => @mem_validateLevel _ rules allNodeIds loop.inputPorts
        ⟨body, loop.edges⟩ (scope ++ [fields.id]) state issue hbody
      have hinner := fun state =>
        @mem_validateNodes allNodeIds (scope ++ [fields.id]) issue hbody body state
      rw [validateStructuredNode, walkNode]
      simp only [levelPath_body, List.mem_append, hown, hinner, List.exists_mem_cons_iff]
      constructor
      · rintro ((((((hretry | howns) | hlimits) | hports) | hreport) | hlinks) | hdeeper)
        · exact absurd hbody (retryIssues_not_body hretry)
        · exact absurd hbody (ownershipIssues_not_body howns)
        · exact absurd hbody (validateLoopLimits_not_body hlimits)
        · exact absurd hbody (portIssues_not_body hports)
        · exact Or.inl (Or.inl hreport)
        · exact Or.inl (Or.inr hlinks)
        · exact Or.inr hdeeper
      · rintro ((hreport | hlinks) | hdeeper)
        · exact Or.inl (Or.inl (Or.inr hreport))
        · exact Or.inl (Or.inr hlinks)
        · exact Or.inr hdeeper

theorem mem_validateNodes {allNodeIds : List ScriptString} {scope : ScopePath}
    {issue : GraphIssue} (hbody : IsBodyIssue issue) :
    (nodes : List (WorkflowNode Number)) -> (state : StructureState) ->
      (issue ∈ (validateNodes rules allNodeIds (levelPath scope) nodes state).issues ↔
        exists level, level ∈ walkNodes scope nodes ∧ ReportsBody level issue)
  | [], state => by
      rw [validateNodes, walkNodes]
      constructor
      · intro h
        cases h
      · rintro ⟨_, hnone, _⟩
        cases hnone
  | node :: rest, state => by
      have hfirst := fun state =>
        @mem_validateStructuredNode allNodeIds scope issue hbody node state
      have hlater := fun state => @mem_validateNodes allNodeIds scope issue hbody rest state
      rw [validateNodes, walkNodes]
      simp only [List.mem_append, hfirst, hlater, or_and_right, exists_or]

end

/-- A validation reports on the links of every level and on every body. -/
theorem mem_validateGraphStructure {graph : GraphLevel Number} {issue : GraphIssue}
    (hbody : IsBodyIssue issue) :
    issue ∈ validateGraphStructure rules graph ↔
      ReportsLinks (graph, []) issue ∨
        exists level, level ∈ walkNodes [] graph.nodes ∧ ReportsBody level issue := by
  rw [validateGraphStructure]
  have hroot : rootPath = levelPath [] := rfl
  rw [hroot, List.mem_append, mem_validateLevel hbody, mem_validateNodes hbody]

end

end

end Bodies
end Pertexo
