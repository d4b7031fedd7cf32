import Mathlib.Data.List.Perm.Subperm
import Pertexo.Bodies.BodyRules
import Pertexo.Bodies.ReportedBodies
import Pertexo.Values.JsonText

/-!
# The editor's rules and the validation agree

## One body
-/

namespace Pertexo
namespace Bodies

open Library
open Portability
open Values

section

variable {Number : Type} {body : GraphLevel Number}

theorem mem_localLinks {link : ScriptString × ScriptString} :
    link ∈ localLinks body ↔ exists edge, edge ∈ body.edges ∧
      (edge.source.nodeId ∈ body.ids ∧ edge.target.nodeId ∈ body.ids) ∧
        (edge.source.nodeId, edge.target.nodeId) = link := by
  simp [localLinks, and_assoc]

theorem mem_levelAdjacency {source target : ScriptString} :
    target ∈ levelAdjacency body source ↔ (source, target) ∈ localLinks body := by
  rw [mem_localLinks, levelAdjacency, List.mem_map]
  constructor
  · rintro ⟨edge, hedge, rfl⟩
    rw [List.mem_filter] at hedge
    simp only [Bool.and_eq_true, List.contains_iff_mem, beq_iff_eq] at hedge
    exact ⟨edge, hedge.left, hedge.right.left, by rw [hedge.right.right]⟩
  · rintro ⟨edge, hedge, hlocal, hlink⟩
    refine ⟨edge, ?_, congrArg Prod.snd hlink⟩
    rw [List.mem_filter]
    simp only [Bool.and_eq_true, List.contains_iff_mem, beq_iff_eq]
    exact ⟨hedge, hlocal, congrArg Prod.fst hlink⟩

theorem ends_of_localLinks {source target : ScriptString}
    (h : (source, target) ∈ localLinks body) : source ∈ body.ids ∧ target ∈ body.ids := by
  rcases mem_localLinks.mp h with ⟨edge, _, hlocal, hlink⟩
  cases hlink
  exact hlocal

theorem bodyIds_eq (hids : body.ids.Nodup) : bodyIds body = body.ids := by
  rw [bodyIds, Keyed.ofList_items (by rwa [List.map_id])]

theorem mem_outgoingLinks (hids : body.ids.Nodup) (link : ScriptString × ScriptString) :
    link ∈ outgoingLinks body ↔ link ∈ localLinks body := by
  rcases link with ⟨source, target⟩
  rw [outgoingLinks, List.mem_flatMap, bodyIds_eq hids]
  constructor
  · rintro ⟨first, _, hlink⟩
    rcases List.mem_map.mp hlink with ⟨other, hother, hsame⟩
    cases hsame
    exact mem_levelAdjacency.mp hother
  · intro hlink
    refine ⟨source, (ends_of_localLinks hlink).left, ?_⟩
    exact List.mem_map_of_mem (mem_levelAdjacency.mpr hlink)

theorem mem_reversed {links : List (ScriptString × ScriptString)}
    {link : ScriptString × ScriptString} : link ∈ links.map Prod.swap ↔ link.swap ∈ links := by
  rw [List.mem_map]
  constructor
  · rintro ⟨other, hother, rfl⟩
    rwa [Prod.swap_swap]
  · intro h
    exact ⟨link.swap, h, Prod.swap_swap link⟩

theorem bodySinks_eq (hids : body.ids.Nodup) : bodySinks body = levelSinks body := by
  rw [bodySinks, levelSinks, bodyIds_eq hids]
  apply List.filter_congr
  intro source _
  rw [Bool.eq_iff_iff, beq_iff_eq, Bool.not_eq_true', ← Bool.not_eq_true, List.contains_iff_mem,
    List.length_eq_zero_iff, List.eq_nil_iff_forall_not_mem]
  constructor
  · intro hnone hleading
    rcases List.mem_map.mp hleading with ⟨⟨first, target⟩, hlink, rfl⟩
    exact hnone target (mem_levelAdjacency.mpr hlink)
  · intro hnone target htarget
    exact hnone (List.mem_map.mpr ⟨_, mem_levelAdjacency.mp htarget, rfl⟩)

theorem incomingCount_eq_zero (id : ScriptString) :
    incomingCount body id = 0 ↔ id ∉ (reversed (localLinks body)).map Prod.fst := by
  rw [incomingCount, List.length_eq_zero_iff, List.filter_eq_nil_iff]
  constructor
  · intro hnone hprevious
    rcases List.mem_map.mp hprevious with ⟨link, hlink, rfl⟩
    rcases mem_localLinks.mp (mem_reversed.mp hlink) with ⟨edge, hedge, hlocal, hsame⟩
    apply hnone edge hedge
    simp only [Bool.and_eq_true, List.contains_iff_mem, beq_iff_eq]
    exact ⟨hlocal, congrArg Prod.snd hsame⟩
  · intro hnone edge hedge hmatch
    simp only [Bool.and_eq_true, List.contains_iff_mem, beq_iff_eq] at hmatch
    apply hnone
    refine List.mem_map.mpr ⟨(id, edge.source.nodeId), mem_reversed.mpr ?_, rfl⟩
    exact mem_localLinks.mpr ⟨edge, hedge, hmatch.left, by rw [hmatch.right]; rfl⟩

theorem length_eq_iff {found : List ScriptString} (hids : body.ids.Nodup) (hfound : found.Nodup)
    (hsub : forall id, id ∈ found -> id ∈ body.ids) :
    found.length = body.ids.length ↔ forall id, id ∈ body.ids -> id ∈ found := by
  have hsubperm := hfound.subperm hsub
  constructor
  · intro hlength id hid
    exact (hsubperm.perm_of_length_le (Nat.le_of_eq hlength.symm)).mem_iff.mpr hid
  · intro hall
    exact Nat.le_antisymm hsubperm.length_le (hids.subperm hall).length_le

/-- Every step of a body with one end is on the way from its start to that end. -/
def OnTheWay (body : GraphLevel Number) (sinks : List ScriptString) : Prop :=
  forall id, id ∈ body.ids ->
    id ∈ reach (localLinks body)
        ((idSet body).filter fun id => !((reversed (localLinks body)).map Prod.fst).contains id) ∧
      id ∈ reach (reversed (localLinks body)) sinks

theorem strandedSteps_eq_nil (sinks : List ScriptString) :
    strandedSteps body sinks = [] ↔ OnTheWay body sinks := by
  rw [strandedSteps, List.filter_eq_nil_iff]
  simp [OnTheWay]

theorem structuredBodyTopologyValid_iff (hids : body.ids.Nodup) :
    structuredBodyTopologyValid body = true ↔
      (levelSinks body).length = 1 ∧ OnTheWay body (levelSinks body) := by
  have hset := bodyIds_eq hids
  have hforward := mem_outgoingLinks hids
  have hbackward : forall link, link ∈ reverseLinks body ↔ link ∈ reversed (localLinks body) := by
    intro link
    rw [reverseLinks, reversed, mem_reversed, mem_reversed, hforward]
  have hroots : forall id, id ∈ (bodyIds body).filter (fun id => incomingCount body id == 0) ↔
      id ∈ (idSet body).filter
        fun id => !((reversed (localLinks body)).map Prod.fst).contains id := by
    intro id
    rw [List.mem_filter, List.mem_filter, beq_iff_eq, incomingCount_eq_zero, Bool.not_eq_true',
      ← Bool.not_eq_true, List.contains_iff_mem]
    rfl
  have hreach : forall id, id ∈ reach (outgoingLinks body)
      ((bodyIds body).filter fun id => incomingCount body id == 0) -> id ∈ body.ids := by
    intro id hid
    apply mem_of_mem_reach _ _ hid
    · intro root hroot
      rw [← hset]
      exact (List.mem_filter.mp hroot).left
    · intro source target hlink
      exact (ends_of_localLinks ((hforward _).mp hlink)).right
  rw [hset] at hroots hreach
  rw [structuredBodyTopologyValid, bodySinks_eq hids]
  by_cases hsinks : (levelSinks body).length = 1
  · have hsinkReach : forall id, id ∈ reach (reverseLinks body) (levelSinks body) ->
        id ∈ body.ids := by
      intro id hid
      apply mem_of_mem_reach _ _ hid
      · intro sink hsink
        exact (List.mem_filter.mp hsink).left
      · intro source target hlink
        have hswapped := mem_reversed.mp ((hbackward _).mp hlink)
        exact (ends_of_localLinks hswapped).left
    simp only [hsinks, beq_self_eq_true, if_true, Bool.true_and, true_and, Bool.and_eq_true,
      beq_iff_eq]
    rw [hset, length_eq_iff hids (nodup_reach _ _) hreach,
      length_eq_iff hids (nodup_reach _ _) hsinkReach]
    constructor
    · rintro ⟨hall, hallEnd⟩ id hid
      exact ⟨(mem_reach_congr hforward hroots).mp (hall id hid),
        (mem_reach_congr hbackward (fun _ => Iff.rfl)).mp (hallEnd id hid)⟩
    · intro hall
      constructor
      · intro id hid
        exact (mem_reach_congr hforward hroots).mpr (hall id hid).left
      · intro id hid
        exact (mem_reach_congr hbackward (fun _ => Iff.rfl)).mpr (hall id hid).right
  · simp [hsinks]

/-- The editor finds an issue exactly where the validation does. -/
theorem topologyIssues_iff (describeStep : ScriptString -> ScriptString) (hids : body.ids.Nodup) :
    topologyIssues describeStep (some body) ≠ [] ↔
      body.nodes = [] ∨ structuredBodyTopologyValid body = false := by
  rw [topologyIssues]
  by_cases hempty : body.nodes = []
  · simp [hempty]
  · rw [if_neg (by rwa [List.isEmpty_iff])]
    rw [← Bool.not_eq_true, structuredBodyTopologyValid_iff hids]
    by_cases hmany : (levelSinks body).length > 1
    · simp only [hmany, if_true]
      constructor
      · intro _
        refine Or.inr fun h => ?_
        rw [h.left] at hmany
        exact Nat.lt_irrefl _ hmany
      · intro _ hnone
        cases hnone
    · have hstranded := @strandedSteps_eq_nil _ body (levelSinks body)
      simp only [hmany, if_false]
      by_cases hway : OnTheWay body (levelSinks body)
      · have hone : (levelSinks body).length = 1 := by
          rcases List.exists_mem_of_ne_nil _ hempty with ⟨node, hnode⟩
          rcases mem_reach.mp (hway (nodeId node) (List.mem_map_of_mem hnode)).right with
            ⟨sink, hsink, _⟩
          have hpos := List.length_pos_of_mem hsink
          omega
        simp [hstranded.mpr hway, hempty, hone, hway]
      · have hsome : strandedSteps body (levelSinks body) ≠ [] := fun h => hway (hstranded.mp h)
        simp [hsome, hway]

/-!
## All bodies of a graph
-/

/-- Some rule about the body itself is broken. -/
def IsTopologyCode (code : BodyIssueCode) : Prop :=
  code = .empty ∨ code = .sinks ∨ code = .unreachable

theorem isTopologyCode_iff {code : BodyIssueCode} : IsTopologyCode code ↔ code ≠ .crossing := by
  cases code with
  | empty => simp [IsTopologyCode]
  | crossing => simp [IsTopologyCode]
  | sinks => simp [IsTopologyCode]
  | unreachable => simp [IsTopologyCode]

/-- The links of every level end at steps, wherever those live. -/
def LinksEndAtSteps (graph : GraphLevel Number) : Prop :=
  forall level, level ∈ walkLevels graph -> forall edge, edge ∈ level.fst.edges ->
    (exists other, other ∈ walkLevels graph ∧ edge.source.nodeId ∈ other.fst.ids) ∧
      exists other, other ∈ walkLevels graph ∧ edge.target.nodeId ∈ other.fst.ids

section

variable {graph : GraphLevel Number} {level : GraphLevel Number × ScopePath}
  {fields : NodeFields Number} {loop : ForEachFields Number} {steps : List (WorkflowNode Number)}

theorem mem_walkLevels_body (hlevel : level ∈ walkLevels graph)
    (hnode : WorkflowNode.structured fields loop steps ∈ level.fst.nodes) :
    (⟨steps, loop.edges⟩, level.snd ++ [fields.id]) ∈ walkLevels graph :=
  mem_walkLevels.mpr (LevelAt.body (mem_walkLevels.mp hlevel) hnode)

theorem bodyIssuesOf_topology_iff (describeStep : ScriptString -> ScriptString)
    (hids : UniqueIds graph) (hlevel : level ∈ walkLevels graph)
    (hnode : WorkflowNode.structured fields loop steps ∈ level.fst.nodes) :
    (exists issue, issue ∈ bodyIssuesOf describeStep graph fields.id ∧
        IsTopologyCode issue.code) ↔
      topologyIssues describeStep (some (⟨steps, loop.edges⟩ : GraphLevel Number)) ≠ [] := by
  constructor
  · rintro ⟨issue, hissue, hcode⟩
    rcases (listed_iff describeStep graph fields.id issue.code).mp ⟨issue, hissue, rfl⟩ with
      ⟨found, hfound, hsame⟩
    rcases List.mem_append.mp hfound with hown | hcrossing
    · rcases List.mem_flatMap.mp hown with ⟨other, hother, hown⟩
      rcases List.mem_flatMap.mp hown with ⟨node, hmem, hown⟩
      rcases List.mem_map.mp hown with ⟨listed, hlisted, hpair⟩
      have hid : nodeId node = fields.id := congrArg Prod.fst hpair
      have hunique := (node_unique hids hother hlevel (List.mem_filter.mp hmem).left hnode hid).left
      rw [hunique] at hlisted
      exact List.ne_nil_of_mem hlisted
    · rw [← hsame, code_crossingIssues hcrossing] at hcode
      exact absurd rfl (isTopologyCode_iff.mp hcode)
  · intro hsome
    rcases List.exists_mem_of_ne_nil _ hsome with ⟨issue, hissue⟩
    have hown : (fields.id, issue) ∈ ownIssues describeStep graph := by
      refine List.mem_flatMap.mpr ⟨level, hlevel, List.mem_flatMap.mpr ⟨_,
        List.mem_filter.mpr ⟨hnode, rfl⟩, ?_⟩⟩
      exact List.mem_map_of_mem hissue
    rcases (listed_iff describeStep graph fields.id issue.code).mpr
      ⟨issue, List.mem_append_left _ hown, rfl⟩ with ⟨listed, hlisted, hsame⟩
    refine ⟨listed, hlisted, ?_⟩
    rw [hsame, isTopologyCode_iff]
    exact code_ownIssues hown

/-- The validation reports the body with this path empty or of invalid topology. -/
def ReportedInvalid (issues : List GraphIssue) (bodyPath : IssuePath) : Prop :=
  { code := .invalidStructuredBody, path := pathParts bodyPath ["nodes"],
    message := emptyMessage : GraphIssue } ∈ issues ∨
  { code := .invalidStructuredBody, path := bodyPath,
    message := topologyMessage : GraphIssue } ∈ issues

theorem mem_bodyReport_empty {other : GraphLevel Number} {path bodyPath : IssuePath} :
    { code := .invalidStructuredBody, path := pathParts bodyPath ["nodes"],
      message := emptyMessage : GraphIssue } ∈ bodyReport other path ↔
        path = bodyPath ∧ other.nodes = [] := by
  rw [bodyReport, List.mem_append]
  constructor
  · rintro (hempty | htopology)
    · split at hempty
      · next hnone =>
        have hpath := congrArg GraphIssue.path (List.mem_singleton.mp hempty)
        exact ⟨(List.append_cancel_right hpath).symm,
          List.length_eq_zero_iff.mp (beq_iff_eq.mp hnone)⟩
      · cases hempty
    · split at htopology
      · exact absurd (congrArg GraphIssue.message (List.mem_singleton.mp htopology))
          body_messages.left
      · cases htopology
  · rintro ⟨rfl, hnone⟩
    left
    rw [if_pos (by rw [hnone]; rfl)]
    exact List.mem_singleton_self _

theorem mem_bodyReport_topology {other : GraphLevel Number} {path bodyPath : IssuePath} :
    { code := .invalidStructuredBody, path := bodyPath,
      message := topologyMessage : GraphIssue } ∈ bodyReport other path ↔
        path = bodyPath ∧ structuredBodyTopologyValid other = false := by
  rw [bodyReport, List.mem_append]
  constructor
  · rintro (hempty | htopology)
    · split at hempty
      · exact absurd (congrArg GraphIssue.message (List.mem_singleton.mp hempty)).symm
          body_messages.left
      · cases hempty
    · split at htopology
      · next hinvalid =>
        have hpath := congrArg GraphIssue.path (List.mem_singleton.mp htopology)
        exact ⟨hpath.symm, by simpa using hinvalid⟩
      · cases htopology
  · rintro ⟨rfl, hinvalid⟩
    right
    rw [if_pos (by rw [hinvalid]; rfl)]
    exact List.mem_singleton_self _

variable [GraphNumber Number]

/-- Only the level that a path names is reported under that path. -/
theorem mem_validate_body {rules : StructureRules Number} (hids : UniqueIds graph)
    (hlevel : level ∈ walkLevels graph)
    (hnode : WorkflowNode.structured fields loop steps ∈ level.fst.nodes) {issue : GraphIssue}
    (hcode : issue.code = .invalidStructuredBody) (hbody : IsBodyIssue issue)
    (hpath : forall other : GraphLevel Number, forall scope,
      issue ∈ bodyReport other (levelPath scope) ->
        levelPath scope = levelPath (level.snd ++ [fields.id])) :
    issue ∈ validateGraphStructure rules graph ↔
      issue ∈ bodyReport (⟨steps, loop.edges⟩ : GraphLevel Number)
        (levelPath (level.snd ++ [fields.id])) := by
  have hhere := mem_walkLevels_body hlevel hnode
  have hlinks : forall other, ¬ @ReportsLinks Number other issue := by
    rintro other ⟨edge, _, _, rfl⟩
    cases hcode
  rw [mem_validateGraphStructure hbody]
  constructor
  · rintro (hroot | ⟨other, hother, hreport | hlink⟩)
    · exact absurd hroot (hlinks _)
    · have hscope := levelPath_injective (hpath other.fst other.snd hreport)
      have hthere : (other.fst, level.snd ++ [fields.id]) ∈ walkLevels graph := by
        rw [← hscope]
        exact List.mem_cons_of_mem _ hother
      rw [scope_unique hids hthere hhere, hscope] at hreport
      exact hreport
    · exact absurd hlink (hlinks _)
  · intro hreport
    right
    rcases List.mem_cons.mp hhere with hroot | hinner
    · have hscope := congrArg Prod.snd hroot
      simp at hscope
    · exact ⟨_, hinner, Or.inl hreport⟩

theorem reportedInvalid_iff {rules : StructureRules Number} (hids : UniqueIds graph)
    (hlevel : level ∈ walkLevels graph)
    (hnode : WorkflowNode.structured fields loop steps ∈ level.fst.nodes) :
    ReportedInvalid (validateGraphStructure rules graph)
        (levelPath (level.snd ++ [fields.id])) ↔
      steps = [] ∨
        structuredBodyTopologyValid (⟨steps, loop.edges⟩ : GraphLevel Number) = false := by
  rw [ReportedInvalid, mem_validate_body hids hlevel hnode rfl (Or.inr ⟨rfl, Or.inl rfl⟩)
      (fun _ _ h => (mem_bodyReport_empty.mp h).left),
    mem_validate_body hids hlevel hnode rfl (Or.inr ⟨rfl, Or.inr rfl⟩)
      (fun _ _ h => (mem_bodyReport_topology.mp h).left),
    mem_bodyReport_empty, mem_bodyReport_topology]
  simp

/-!
## Links across levels
-/

omit [GraphNumber Number] in
/-- A link crosses levels exactly when an end of it is missing on its own level. -/
theorem crosses_iff (hids : UniqueIds graph) (hlinks : LinksEndAtSteps graph)
    (hlevel : level ∈ walkLevels graph) {edge : WorkflowEdge} (hedge : edge ∈ level.fst.edges) :
    (locatedEnds graph edge).all (fun located => sameScope located.scope level.snd) = false ↔
      Dangles level.fst edge := by
  have hend : forall id, (exists other, other ∈ walkLevels graph ∧ id ∈ other.fst.ids) ->
      exists scope, scopeOf graph id = some scope ∧ (scope = level.snd ↔ id ∈ level.fst.ids) := by
    rintro id ⟨other, hother, hid⟩
    refine ⟨other.snd, scopeOf_eq_some hids hother hid, ?_⟩
    constructor
    · intro hscope
      rcases other with ⟨otherLevel, scope⟩
      rcases level with ⟨ownLevel, ownScope⟩
      dsimp only at hscope
      subst hscope
      rw [← scope_unique hids hother hlevel]
      exact hid
    · intro hhere
      rw [level_unique hids hother hlevel hid hhere]
  rcases hlinks level hlevel edge hedge with ⟨hsource, htarget⟩
  rcases hend _ hsource with ⟨sourceScope, hsourceScope, hsourceHere⟩
  rcases hend _ htarget with ⟨targetScope, htargetScope, htargetHere⟩
  have hends : locatedEnds graph edge =
      [⟨edge.source.nodeId, sourceScope⟩, ⟨edge.target.nodeId, targetScope⟩] := by
    simp [locatedEnds, hsourceScope, htargetScope]
  rw [hends, ← Bool.not_eq_true, List.all_eq_true, Dangles, ← hsourceHere, ← htargetHere]
  simp only [List.mem_cons, List.not_mem_nil, or_false, forall_eq_or_imp, forall_eq,
    sameScope_iff]
  rw [not_and_or]

omit [GraphNumber Number] in
theorem mem_bodiesTouched {scope : ScopePath} {ends : List LocatedEnd} {loopId : ScriptString} :
    loopId ∈ bodiesTouched scope ends ↔
      exists candidate, candidate ∈ scope :: ends.map LocatedEnd.scope ∧
        loopOf candidate = some loopId := by
  rw [bodiesTouched, ← List.mem_filterMap]
  constructor
  · exact Keyed.mem_of_mem_ofList
  · intro h
    rcases @Keyed.exists_get?_ofList _ _ id _ _ _ h with ⟨found, hfound⟩
    have hkey : found = loopId := Keyed.key_of_get? hfound
    rw [← hkey]
    exact Keyed.mem_of_get? hfound

omit [GraphNumber Number] in
/-- A link between levels touches a body, and the For Each of that body is stored. -/
theorem exists_loop_of_crosses {edge : WorkflowEdge}
    (hcrosses : (locatedEnds graph edge).all
      (fun located => sameScope located.scope level.snd) = false) :
    exists loopId, loopId ∈ bodiesTouched level.snd (locatedEnds graph edge) := by
  rw [← Bool.not_eq_true, List.all_eq_true] at hcrosses
  push Not at hcrosses
  rcases hcrosses with ⟨located, hlocated, hother⟩
  rw [Ne, sameScope_iff] at hother
  by_cases hroot : level.snd = []
  · rw [hroot] at hother
    refine ⟨located.scope.getLast hother, mem_bodiesTouched.mpr ⟨located.scope, ?_, ?_⟩⟩
    · exact List.mem_cons_of_mem _ (List.mem_map_of_mem hlocated)
    · exact List.getLast?_eq_getLast_of_ne_nil hother
  · refine ⟨level.snd.getLast hroot, mem_bodiesTouched.mpr ⟨level.snd, List.mem_cons_self .., ?_⟩⟩
    exact List.getLast?_eq_getLast_of_ne_nil hroot

omit [GraphNumber Number] in
theorem loop_stored_of_touched {scope : ScopePath} {edge : WorkflowEdge} {loopId : ScriptString}
    (hlevel : (body, scope) ∈ walkLevels graph)
    (h : loopId ∈ bodiesTouched scope (locatedEnds graph edge)) :
    exists parent, parent ∈ walkLevels graph ∧ exists fields loop steps,
      WorkflowNode.structured fields loop steps ∈ parent.fst.nodes ∧ fields.id = loopId := by
  rcases mem_bodiesTouched.mp h with ⟨candidate, hcandidate, hloop⟩
  rcases List.mem_cons.mp hcandidate with rfl | hend
  · exact loop_stored hlevel hloop
  · rcases List.mem_map.mp hend with ⟨located, hlocated, rfl⟩
    rcases List.mem_filterMap.mp hlocated with ⟨id, _, hsome⟩
    rcases Option.map_eq_some_iff.mp hsome with ⟨found, hfound, rfl⟩
    rcases exists_of_scopeOf hfound with ⟨other, hother, _⟩
    exact loop_stored hother hloop

theorem crossing_iff {rules : StructureRules Number}
    (describeStep : ScriptString -> ScriptString) (hids : UniqueIds graph)
    (hlinks : LinksEndAtSteps graph) :
    (exists level, level ∈ walkLevels graph ∧ exists fields loop steps,
        WorkflowNode.structured fields loop steps ∈ level.fst.nodes ∧
        exists issue, issue ∈ bodyIssuesOf describeStep graph fields.id ∧
          issue.code = .crossing) ↔
      exists issue, issue ∈ validateGraphStructure rules graph ∧ issue.code = .danglingEdge := by
  constructor
  · rintro ⟨_, _, fields, _, _, _, hissue⟩
    rcases (listed_iff describeStep graph fields.id .crossing).mp hissue with ⟨found, hfound, hcode⟩
    rcases List.mem_append.mp hfound with hown | hcrossing
    · exact absurd hcode (code_ownIssues hown)
    · rcases List.mem_flatMap.mp hcrossing with ⟨level, hlevel, hcrossing⟩
      rcases List.mem_flatMap.mp hcrossing with ⟨edge, hedge, hcrossing⟩
      rw [edgeIssues] at hcrossing
      split at hcrossing
      · cases hcrossing
      · next hcrosses =>
        have hdangles := (crosses_iff hids hlinks hlevel hedge).mp (Bool.not_eq_true _ ▸ hcrosses)
        have hreport : ReportsLinks level (danglingIssue (levelPath level.snd) edge) :=
          ⟨edge, hedge, hdangles, rfl⟩
        refine ⟨danglingIssue (levelPath level.snd) edge,
          (mem_validateGraphStructure (Or.inl rfl)).mpr ?_, rfl⟩
        rcases List.mem_cons.mp hlevel with rfl | hinner
        · exact Or.inl hreport
        · exact Or.inr ⟨level, hinner, Or.inr hreport⟩
  · rintro ⟨issue, hissue, hcode⟩
    have hreport : exists level, level ∈ walkLevels graph ∧ ReportsLinks level issue := by
      rcases (mem_validateGraphStructure (Or.inl hcode)).mp hissue with
        hroot | ⟨level, hlevel, hbody | hlink⟩
      · exact ⟨_, List.mem_cons_self .., hroot⟩
      · rw [bodyReport] at hbody
        rcases List.mem_append.mp hbody with hempty | htopology
        · split at hempty
          · rw [List.mem_singleton.mp hempty] at hcode
            cases hcode
          · cases hempty
        · split at htopology
          · rw [List.mem_singleton.mp htopology] at hcode
            cases hcode
          · cases htopology
      · exact ⟨level, List.mem_cons_of_mem _ hlevel, hlink⟩
    rcases hreport with ⟨level, hlevel, edge, hedge, hdangles, _⟩
    have hcrosses := (crosses_iff hids hlinks hlevel hedge).mpr hdangles
    rcases exists_loop_of_crosses hcrosses with ⟨loopId, htouched⟩
    rcases loop_stored_of_touched hlevel htouched with
      ⟨parent, hparent, fields, loop, steps, hnode, rfl⟩
    refine ⟨parent, hparent, fields, loop, steps, hnode, ?_⟩
    apply (listed_iff describeStep graph fields.id .crossing).mpr
    refine ⟨crossingIssue (locatedEnds graph edge) fields.id, List.mem_append_right _ ?_, rfl⟩
    refine List.mem_flatMap.mpr ⟨level, hlevel, List.mem_flatMap.mpr ⟨edge, hedge, ?_⟩⟩
    rw [edgeIssues, if_neg (by rw [hcrosses]; exact Bool.false_ne_true)]
    exact List.mem_map_of_mem htouched

/-!
## Agreement
-/

theorem body_rules_agree (rules : StructureRules Number)
    (describeStep : ScriptString -> ScriptString) (graph : GraphLevel Number)
    (hids : UniqueIds graph) (hlinks : LinksEndAtSteps graph) :
    (forall level, level ∈ walkLevels graph -> forall fields loop steps,
        WorkflowNode.structured fields loop steps ∈ level.fst.nodes ->
        ((exists issue, issue ∈ bodyIssuesOf describeStep graph fields.id ∧
            (issue.code = .empty ∨ issue.code = .sinks ∨ issue.code = .unreachable)) ↔
          ReportedInvalid (validateGraphStructure rules graph)
            (levelPath (level.snd ++ [fields.id])))) ∧
      ((exists level, level ∈ walkLevels graph ∧ exists fields loop steps,
          WorkflowNode.structured fields loop steps ∈ level.fst.nodes ∧
          exists issue, issue ∈ bodyIssuesOf describeStep graph fields.id ∧
            issue.code = .crossing) ↔
        exists issue, issue ∈ validateGraphStructure rules graph ∧
          issue.code = .danglingEdge) := by
  refine ⟨?_, crossing_iff describeStep hids hlinks⟩
  intro level hlevel fields loop steps hnode
  have hbody := mem_walkLevels_body hlevel hnode
  have heditor := bodyIssuesOf_topology_iff describeStep hids hlevel hnode
  rw [topologyIssues_iff describeStep (nodup_ids hids hbody)] at heditor
  rw [reportedInvalid_iff hids hlevel hnode]
  exact heditor

end

end

/-!
## A body whose step follows itself
-/

@[reducible] def sampleNumbers : GraphNumber Nat where
  toScriptNumber := inferInstance
  safeInteger := fun n => some n
  compareInteger := fun n bound => compare (n : Int) bound

def sampleRules : StructureRules Nat where
  nodes := 100
  edges := 100
  maxLoopIterations := 100
  maxLoopConcurrency := 10
  maxDirectPredecessors := 10
  isJsonPath := fun _ => true
  supportsStepRetrySettings := fun _ => true

def sampleStep (id key : String) : NodeFields Nat where
  id := scriptString id
  definition := { key := scriptString key, version := .finite 1 }
  position := { x := .finite 0, y := .finite 0 }
  configVersion := .finite 1
  config := []
  inputMappings := []
  connectionRefs := .empty
  label := none
  disabled := none
  retry := none

def sampleLink : WorkflowEdge where
  id := scriptString "again"
  source := { nodeId := scriptString "child", port := scriptString "main" }
  target := { nodeId := scriptString "child", port := scriptString "main" }

def sampleLoop : ForEachFields Nat where
  maxIterations := .finite 2
  maxConcurrency := .finite 1
  edges := [sampleLink]
  settings := { maxRunDurationMs := none }
  inputPorts := [scriptString "item", scriptString "ordinal"]
  outputPorts := [scriptString "result"]

def sampleLevel : GraphLevel Nat where
  nodes := [.structured (sampleStep "loop" "core.foreach") sampleLoop
    [.step (sampleStep "child" "http.request")]]
  edges := []

theorem sampleLevel_linksEndAtSteps : LinksEndAtSteps sampleLevel := by
  intro level hlevel edge hedge
  have hchild : exists other, other ∈ walkLevels sampleLevel ∧
      scriptString "child" ∈ other.fst.ids :=
    ⟨_, List.mem_cons_of_mem _ (List.mem_cons_self ..), List.mem_cons_self ..⟩
  rcases List.mem_cons.mp hlevel with rfl | hinner
  · cases hedge
  · rcases List.mem_cons.mp hinner with rfl | hnone
    · rw [List.mem_singleton.mp hedge]
      exact ⟨hchild, hchild⟩
    · cases hnone

theorem body_rules_agree_sample :
    (exists issue, issue ∈ bodyIssuesOf (fun key => key) sampleLevel (scriptString "loop") ∧
        (issue.code = .empty ∨ issue.code = .sinks ∨ issue.code = .unreachable)) ↔
      ReportedInvalid (@validateGraphStructure Nat sampleNumbers sampleRules sampleLevel)
        (levelPath [scriptString "loop"]) :=
  (@body_rules_agree Nat sampleNumbers sampleRules (fun key => key) sampleLevel (by
      unfold UniqueIds
      decide) sampleLevel_linksEndAtSteps).left
    _ (List.mem_cons_self ..) _ _ _ (List.mem_cons_self ..)

end Bodies
end Pertexo
