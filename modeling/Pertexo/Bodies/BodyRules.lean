import Pertexo.Bodies.GraphLevels
import Pertexo.Library.Worklists

/-!
# The editor's rules for a body

A body has steps, stays apart from the steps around it, ends in one step and every
step is on the way from its start to that end.
-/

namespace Pertexo
namespace Bodies

open Library
open Portability
open Values

inductive BodyIssueCode where
  | empty
  | crossing
  | sinks
  | unreachable
deriving DecidableEq, Repr

structure BodyIssue where
  code : BodyIssueCode
  message : ScriptString
  /-- The body steps it's about, if any. -/
  nodeIds : List ScriptString

section

variable {Number : Type}

/-!
## Links of one level
-/

def localLinks (level : GraphLevel Number) : List (ScriptString × ScriptString) :=
  (level.edges.filter fun edge =>
    level.ids.contains edge.source.nodeId && level.ids.contains edge.target.nodeId).map
      fun edge => (edge.source.nodeId, edge.target.nodeId)

def reversed (links : List (ScriptString × ScriptString)) : List (ScriptString × ScriptString) :=
  links.map Prod.swap

def idSet (level : GraphLevel Number) : List ScriptString :=
  (Keyed.ofList level.ids : Keyed ScriptString id).items

/-- Steps on a level that nothing on it follows, in stored order. -/
def levelSinks (level : GraphLevel Number) : List ScriptString :=
  let leading := (localLinks level).map Prod.fst
  level.ids.filter fun id => !leading.contains id

/-- Steps a body's start can't reach, or that can't reach its one end. -/
def strandedSteps (body : GraphLevel Number) (sinks : List ScriptString) : List ScriptString :=
  let next := localLinks body
  let previous := reversed next
  let roots := (idSet body).filter fun id => !(previous.map Prod.fst).contains id
  let fromStart := reach next roots
  let toEnd := reach previous sinks
  body.ids.filter fun id => !(fromStart.contains id && toEnd.contains id)

/-!
## Issues
-/

/-- The title of a step: its label, or what its kind is called. -/
def stepTitle (describeStep : ScriptString -> ScriptString) (node : WorkflowNode Number) :
    ScriptString :=
  node.fields.label.getD (describeStep node.fields.definition.key)

def quotedTitle (title : ScriptString) : ScriptString :=
  scriptString "\u201c" ++ title ++ scriptString "\u201d"

/-- The titles in a row, with an "and" before the last one. -/
def enumerated (titles : List ScriptString) : ScriptString :=
  match titles.reverse with
  | [] => []
  | [title] => title
  | last :: before =>
      (before.reverse.intersperse (scriptString ", ")).flatten ++ scriptString " and " ++ last

def names (describeStep : ScriptString -> ScriptString) (body : GraphLevel Number)
    (ids : List ScriptString) : ScriptString :=
  enumerated (ids.map fun id =>
    match body.nodes.find? fun candidate => nodeId candidate == id with
    | none => scriptString "a step"
    | some node => quotedTitle (stepTitle describeStep node))

def emptyIssue : BodyIssue where
  code := .empty
  message := scriptString "The body is empty. Add the step each item should run through."
  nodeIds := []

def sinksIssue (describeStep : ScriptString -> ScriptString) (body : GraphLevel Number)
    (sinks : List ScriptString) : BodyIssue where
  code := .sinks
  message := scriptString ("The body ends in " ++ toString sinks.length ++ " steps: ") ++
    names describeStep body sinks ++
    scriptString ". Link them into one last step; its output is each item\u2019s result."
  nodeIds := sinks

def strandedIssue (describeStep : ScriptString -> ScriptString) (body : GraphLevel Number)
    (stranded : List ScriptString) : BodyIssue where
  code := .unreachable
  message := names describeStep body stranded ++
    scriptString (if stranded.length = 1 then " isn\u2019t" else " aren\u2019t") ++
    scriptString (" on the way from the body\u2019s start to its last step. Remove the link " ++
      "that loops back, or link " ++ (if stranded.length = 1 then "it" else "them") ++
      " into the body\u2019s path.")
  nodeIds := stranded

def topologyIssues (describeStep : ScriptString -> ScriptString) :
    Option (GraphLevel Number) -> List BodyIssue
  | none => [emptyIssue]
  | some body =>
      if body.nodes.isEmpty then [emptyIssue]
      else
        let sinks := levelSinks body
        if sinks.length > 1 then [sinksIssue describeStep body sinks]
        else
          let stranded := strandedSteps body sinks
          if stranded.isEmpty then [] else [strandedIssue describeStep body stranded]

structure LocatedEnd where
  id : ScriptString
  scope : ScopePath

def locatedEnds (graph : GraphLevel Number) (edge : WorkflowEdge) : List LocatedEnd :=
  [edge.source.nodeId, edge.target.nodeId].filterMap fun id =>
    (scopeOf graph id).map fun scope => { id, scope }

def bodiesTouched (scope : ScopePath) (ends : List LocatedEnd) : List ScriptString :=
  (Keyed.ofList ((scope :: ends.map LocatedEnd.scope).filterMap loopOf) :
    Keyed ScriptString id).items

def crossingIssue (ends : List LocatedEnd) (loopId : ScriptString) : BodyIssue where
  code := .crossing
  message := scriptString ("A link crosses the body\u2019s edge. Steps in a body only link to " ++
    "each other; remove that link.")
  nodeIds := (ends.filter fun located => loopOf located.scope == some loopId).map LocatedEnd.id

def edgeIssues (graph : GraphLevel Number) (scope : ScopePath) (edge : WorkflowEdge) :
    List (ScriptString × BodyIssue) :=
  let ends := locatedEnds graph edge
  if ends.all fun located => sameScope located.scope scope then []
  else (bodiesTouched scope ends).map fun loopId => (loopId, crossingIssue ends loopId)

/-- Links joining steps on different levels, for each body involved. -/
def crossingIssues (graph : GraphLevel Number) : List (ScriptString × BodyIssue) :=
  (walkLevels graph).flatMap fun level =>
    level.fst.edges.flatMap fun edge => edgeIssues graph level.snd edge

def ownIssues (describeStep : ScriptString -> ScriptString) (graph : GraphLevel Number) :
    List (ScriptString × BodyIssue) :=
  (walkLevels graph).flatMap fun level =>
    (level.fst.nodes.filter isForEach).flatMap fun node =>
      (topologyIssues describeStep (bodyOf node)).map fun issue => (nodeId node, issue)

abbrev IssueMap : Type :=
  Keyed (ScriptString × List BodyIssue) Prod.fst

def issuesAt (issues : IssueMap) (loopId : ScriptString) : List BodyIssue :=
  ((issues.get? loopId).map Prod.snd).getD []

/-- A second issue of one kind is left out. -/
def addIssue (issues : IssueMap) (added : ScriptString × BodyIssue) : IssueMap :=
  let list := issuesAt issues added.fst
  if list.any fun existing => existing.code == added.snd.code then issues.set (added.fst, list)
  else issues.set (added.fst, list ++ [added.snd])

def forEachBodyIssues (describeStep : ScriptString -> ScriptString) (graph : GraphLevel Number) :
    IssueMap :=
  (ownIssues describeStep graph ++ crossingIssues graph).foldl addIssue Keyed.empty

def bodyIssuesOf (describeStep : ScriptString -> ScriptString) (graph : GraphLevel Number)
    (loopId : ScriptString) : List BodyIssue :=
  issuesAt (forEachBodyIssues describeStep graph) loopId

/-!
## What the issues say
-/

theorem issuesAt_set (issues : IssueMap) (id loopId : ScriptString) (list : List BodyIssue) :
    issuesAt (issues.set (id, list)) loopId =
      if loopId = id then list else issuesAt issues loopId := by
  rw [issuesAt, Keyed.get?_set]
  split
  · rfl
  · rfl

theorem issuesAt_addIssue (issues : IssueMap) (added : ScriptString × BodyIssue)
    (loopId : ScriptString) (code : BodyIssueCode) :
    (exists issue, issue ∈ issuesAt (addIssue issues added) loopId ∧ issue.code = code) ↔
      (exists issue, issue ∈ issuesAt issues loopId ∧ issue.code = code) ∨
        added.fst = loopId ∧ added.snd.code = code := by
  rw [addIssue]
  by_cases hid : loopId = added.fst
  · subst hid
    split
    · next hthere =>
      rw [issuesAt_set, if_pos rfl]
      constructor
      · exact Or.inl
      · intro h
        rcases h with hold | ⟨_, hcode⟩
        · exact hold
        · rcases List.any_eq_true.mp hthere with ⟨existing, hmem, hsame⟩
          exact ⟨existing, hmem, (beq_iff_eq.mp hsame).trans hcode⟩
    · rw [issuesAt_set, if_pos rfl]
      constructor
      · intro h
        rcases h with ⟨issue, hmem, hcode⟩
        rcases List.mem_append.mp hmem with hold | hnew
        · exact Or.inl ⟨issue, hold, hcode⟩
        · rw [List.mem_singleton.mp hnew] at hcode
          exact Or.inr ⟨rfl, hcode⟩
      · intro h
        rcases h with ⟨issue, hmem, hcode⟩ | ⟨_, hcode⟩
        · exact ⟨issue, List.mem_append_left _ hmem, hcode⟩
        · exact ⟨added.snd, List.mem_append_right _ (List.mem_singleton_self _), hcode⟩
  · have hother : forall list, issuesAt (issues.set (added.fst, list)) loopId =
        issuesAt issues loopId := by
      intro list
      rw [issuesAt_set, if_neg hid]
    split
    · rw [hother]
      exact ⟨Or.inl, fun h => h.elim (fun hold => hold) (fun hnew => absurd hnew.left.symm hid)⟩
    · rw [hother]
      exact ⟨Or.inl, fun h => h.elim (fun hold => hold) (fun hnew => absurd hnew.left.symm hid)⟩

theorem issuesAt_foldl (added : List (ScriptString × BodyIssue)) (issues : IssueMap)
    (loopId : ScriptString) (code : BodyIssueCode) :
    (exists issue, issue ∈ issuesAt (added.foldl addIssue issues) loopId ∧ issue.code = code) ↔
      (exists issue, issue ∈ issuesAt issues loopId ∧ issue.code = code) ∨
        exists issue, (loopId, issue) ∈ added ∧ issue.code = code := by
  induction added generalizing issues with
  | nil => simp
  | cons first rest ih =>
      rw [List.foldl_cons, ih, issuesAt_addIssue]
      constructor
      · rintro ((hold | ⟨rfl, hcode⟩) | ⟨issue, hmem, hcode⟩)
        · exact Or.inl hold
        · exact Or.inr ⟨first.snd, List.mem_cons_self .., hcode⟩
        · exact Or.inr ⟨issue, List.mem_cons_of_mem _ hmem, hcode⟩
      · rintro (hold | ⟨issue, hmem, hcode⟩)
        · exact Or.inl (Or.inl hold)
        · rcases List.mem_cons.mp hmem with rfl | hlater
          · exact Or.inl (Or.inr ⟨rfl, hcode⟩)
          · exact Or.inr ⟨issue, hlater, hcode⟩

/-- A kind of issue is listed for a For Each exactly when the rules found one. -/
theorem listed_iff (describeStep : ScriptString -> ScriptString) (graph : GraphLevel Number)
    (loopId : ScriptString) (code : BodyIssueCode) :
    (exists issue, issue ∈ bodyIssuesOf describeStep graph loopId ∧ issue.code = code) ↔
      exists issue, (loopId, issue) ∈ ownIssues describeStep graph ++ crossingIssues graph ∧
        issue.code = code := by
  rw [bodyIssuesOf, forEachBodyIssues, issuesAt_foldl]
  constructor
  · rintro (⟨issue, hnone, _⟩ | hfound)
    · simp [issuesAt] at hnone
    · exact hfound
  · exact Or.inr

theorem code_ownIssues {describeStep : ScriptString -> ScriptString} {graph : GraphLevel Number}
    {found : ScriptString × BodyIssue} (h : found ∈ ownIssues describeStep graph) :
    found.snd.code ≠ .crossing := by
  rcases List.mem_flatMap.mp h with ⟨level, _, h⟩
  rcases List.mem_flatMap.mp h with ⟨node, _, h⟩
  rcases List.mem_map.mp h with ⟨issue, hissue, rfl⟩
  intro hcode
  cases hbody : bodyOf node with
  | none =>
      rw [hbody] at hissue
      rw [List.mem_singleton.mp hissue] at hcode
      cases hcode
  | some body =>
      rw [hbody, topologyIssues] at hissue
      split at hissue
      · rw [List.mem_singleton.mp hissue] at hcode
        cases hcode
      · dsimp only at hissue
        split at hissue
        · rw [List.mem_singleton.mp hissue] at hcode
          cases hcode
        · split at hissue
          · cases hissue
          · rw [List.mem_singleton.mp hissue] at hcode
            cases hcode

theorem code_crossingIssues {graph : GraphLevel Number} {found : ScriptString × BodyIssue}
    (h : found ∈ crossingIssues graph) : found.snd.code = .crossing := by
  rcases List.mem_flatMap.mp h with ⟨level, _, h⟩
  rcases List.mem_flatMap.mp h with ⟨edge, _, h⟩
  rw [edgeIssues] at h
  split at h
  · cases h
  · rcases List.mem_map.mp h with ⟨loopId, _, rfl⟩
    rfl

end

end Bodies
end Pertexo
