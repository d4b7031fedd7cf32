import Mathlib.Data.List.Nodup
import Mathlib.Data.List.Pairwise
import Pertexo.Library.Keyed
import Pertexo.Portability.WorkflowGraph

/-!
# Levels of a nested graph

Every step and link lives on one level, the workflow itself or a body, and a scope
names that level by the For Each steps above it.
-/

namespace Pertexo
namespace Bodies

open Library
open Portability
open Values

/-- One level of the workflow: the workflow itself or a For Each body. -/
structure GraphLevel (Number : Type) where
  nodes : List (WorkflowNode Number)
  edges : List WorkflowEdge

/-- The For Each steps from the workflow down to a level; none is the workflow. -/
abbrev ScopePath : Type :=
  List ScriptString

def FOREACH_KEY : ScriptString :=
  scriptString "core.foreach"

section

variable {Number : Type}

def nodeId (node : WorkflowNode Number) : ScriptString :=
  node.fields.id

def GraphLevel.ids (level : GraphLevel Number) : List ScriptString :=
  level.nodes.map nodeId

def isForEach : WorkflowNode Number -> Bool
  | .step fields => fields.definition.key == FOREACH_KEY
  | .structured .. => true

def bodyOf : WorkflowNode Number -> Option (GraphLevel Number)
  | .step _ => none
  | .structured _ loop body => some { nodes := body, edges := loop.edges }

mutual

def walkNode (scope : ScopePath) : WorkflowNode Number -> List (GraphLevel Number × ScopePath)
  | .step _ => []
  | .structured fields loop body =>
      ({ nodes := body, edges := loop.edges }, scope ++ [fields.id]) ::
        walkNodes (scope ++ [fields.id]) body

def walkNodes (scope : ScopePath) :
    List (WorkflowNode Number) -> List (GraphLevel Number × ScopePath)
  | [] => []
  | node :: rest => walkNode scope node ++ walkNodes scope rest

end

def walkLevels (graph : GraphLevel Number) : List (GraphLevel Number × ScopePath) :=
  (graph, []) :: walkNodes [] graph.nodes

/-- Where a step lives: the first level that has it. -/
def scopeOf (graph : GraphLevel Number) (id : ScriptString) : Option ScopePath :=
  ((walkLevels graph).find? fun level => level.fst.ids.contains id).map Prod.snd

/-- The For Each whose body a scope names, or none for the workflow. -/
def loopOf (scope : ScopePath) : Option ScriptString :=
  scope.getLast?

def sameScope (left right : ScopePath) : Bool :=
  left.length == right.length &&
    left.zipIdx.all fun entry => right[entry.snd]? == some entry.fst

theorem sameScope_iff {left right : ScopePath} : sameScope left right = true ↔ left = right := by
  rw [sameScope, Bool.and_eq_true, beq_iff_eq, List.all_eq_true]
  constructor
  · intro h
    apply List.ext_getElem h.left
    intro index hleft hright
    have hentry := h.right (left[index], index)
      (List.mem_zipIdx_iff_getElem?.mpr (List.getElem?_eq_getElem hleft))
    rw [beq_iff_eq, List.getElem?_eq_getElem hright] at hentry
    exact (Option.some.inj hentry).symm
  · rintro rfl
    refine ⟨rfl, ?_⟩
    intro entry hentry
    rw [List.mem_zipIdx_iff_getElem?.mp hentry]
    exact beq_self_eq_true _

/-!
## Where levels lie

A level is the workflow, or the body of a For Each on another level.
-/

inductive LevelAt (graph : GraphLevel Number) : GraphLevel Number -> ScopePath -> Prop where
  | workflow : LevelAt graph graph []
  | body {level : GraphLevel Number} {scope : ScopePath} {fields : NodeFields Number}
      {loop : ForEachFields Number} {body : List (WorkflowNode Number)}
      (hlevel : LevelAt graph level scope)
      (hnode : WorkflowNode.structured fields loop body ∈ level.nodes) :
      LevelAt graph { nodes := body, edges := loop.edges } (scope ++ [fields.id])

mutual

theorem levelAt_of_walkNode {graph parent : GraphLevel Number} {scope : ScopePath}
    (hparent : LevelAt graph parent scope) :
    (node : WorkflowNode Number) -> node ∈ parent.nodes ->
      forall entry, entry ∈ walkNode scope node -> LevelAt graph entry.fst entry.snd
  | .step _, _ => by
      intro entry hentry
      cases hentry
  | .structured fields loop body, hnode => by
      intro entry hentry
      have hbody : LevelAt graph ⟨body, loop.edges⟩ (scope ++ [fields.id]) :=
        LevelAt.body hparent hnode
      rw [walkNode] at hentry
      rcases List.mem_cons.mp hentry with rfl | hinner
      · exact hbody
      · exact levelAt_of_walkNodes hbody body (fun _ hmem => hmem) entry hinner

theorem levelAt_of_walkNodes {graph parent : GraphLevel Number} {scope : ScopePath}
    (hparent : LevelAt graph parent scope) :
    (nodes : List (WorkflowNode Number)) -> (forall node, node ∈ nodes -> node ∈ parent.nodes) ->
      forall entry, entry ∈ walkNodes scope nodes -> LevelAt graph entry.fst entry.snd
  | [], _ => by
      intro entry hentry
      cases hentry
  | node :: rest, hnodes => by
      intro entry hentry
      rw [walkNodes] at hentry
      rcases List.mem_append.mp hentry with hfirst | hlater
      · exact levelAt_of_walkNode hparent node (hnodes node (List.mem_cons_self ..)) entry hfirst
      · exact levelAt_of_walkNodes hparent rest
          (fun other hother => hnodes other (List.mem_cons_of_mem _ hother)) entry hlater

end

mutual

/-- A walk that visits a level visits the bodies of its steps. -/
theorem walkNode_closed {fields : NodeFields Number} {loop : ForEachFields Number}
    {body : List (WorkflowNode Number)} (scope : ScopePath) :
    (node : WorkflowNode Number) -> forall entry, entry ∈ walkNode scope node ->
      WorkflowNode.structured fields loop body ∈ entry.fst.nodes ->
        (⟨body, loop.edges⟩, entry.snd ++ [fields.id]) ∈ walkNode scope node
  | .step _ => by
      intro entry hentry
      cases hentry
  | .structured outer outerLoop outerBody => by
      intro entry hentry hnode
      rw [walkNode] at hentry ⊢
      apply List.mem_cons_of_mem
      rcases List.mem_cons.mp hentry with rfl | hinner
      · exact walkNodes_direct _ outerBody hnode
      · exact walkNodes_closed _ outerBody entry hinner hnode

theorem walkNodes_closed {fields : NodeFields Number} {loop : ForEachFields Number}
    {body : List (WorkflowNode Number)} (scope : ScopePath) :
    (nodes : List (WorkflowNode Number)) -> forall entry, entry ∈ walkNodes scope nodes ->
      WorkflowNode.structured fields loop body ∈ entry.fst.nodes ->
        (⟨body, loop.edges⟩, entry.snd ++ [fields.id]) ∈ walkNodes scope nodes
  | [] => by
      intro entry hentry
      cases hentry
  | node :: rest => by
      intro entry hentry hnode
      rw [walkNodes] at hentry ⊢
      rcases List.mem_append.mp hentry with hfirst | hlater
      · exact List.mem_append_left _ (walkNode_closed scope node entry hfirst hnode)
      · exact List.mem_append_right _ (walkNodes_closed scope rest entry hlater hnode)

theorem walkNodes_direct {fields : NodeFields Number} {loop : ForEachFields Number}
    {body : List (WorkflowNode Number)} (scope : ScopePath) :
    (nodes : List (WorkflowNode Number)) -> WorkflowNode.structured fields loop body ∈ nodes ->
      (⟨body, loop.edges⟩, scope ++ [fields.id]) ∈ walkNodes scope nodes
  | [], hnode => nomatch hnode
  | node :: rest, hnode => by
      rw [walkNodes]
      rcases List.mem_cons.mp hnode with rfl | hlater
      · rw [walkNode]
        exact List.mem_append_left _ (List.mem_cons_self ..)
      · exact List.mem_append_right _ (walkNodes_direct scope rest hlater)

end

theorem mem_walkLevels {graph level : GraphLevel Number} {scope : ScopePath} :
    (level, scope) ∈ walkLevels graph ↔ LevelAt graph level scope := by
  constructor
  · intro h
    rcases List.mem_cons.mp h with hroot | hinner
    · cases hroot
      exact LevelAt.workflow
    · exact levelAt_of_walkNodes LevelAt.workflow graph.nodes (fun _ hmem => hmem) _ hinner
  · intro h
    induction h with
    | workflow => exact List.mem_cons_self ..
    | @body level scope fields loop body _ hnode ih =>
        apply List.mem_cons_of_mem
        rcases List.mem_cons.mp ih with hroot | hinner
        · cases hroot
          exact walkNodes_direct [] graph.nodes hnode
        · exact walkNodes_closed [] graph.nodes _ hinner hnode

/-!
## Unique steps
-/

def UniqueIds (graph : GraphLevel Number) : Prop :=
  ((walkLevels graph).flatMap fun level => level.fst.ids).Nodup

theorem level_unique {graph : GraphLevel Number} (h : UniqueIds graph)
    {first second : GraphLevel Number × ScopePath} (hfirst : first ∈ walkLevels graph)
    (hsecond : second ∈ walkLevels graph) {id : ScriptString} (hid : id ∈ first.fst.ids)
    (hid' : id ∈ second.fst.ids) : first = second := by
  by_contra hne
  have hsymm : Std.Symm (Function.onFun List.Disjoint
      fun level : GraphLevel Number × ScopePath => level.fst.ids) :=
    ⟨fun _ _ hleft _ hfirst hsecond => hleft hsecond hfirst⟩
  exact (List.nodup_flatMap.mp h).right.forall hfirst hsecond hne hid hid'

theorem nodup_ids {graph : GraphLevel Number} (h : UniqueIds graph)
    {level : GraphLevel Number × ScopePath} (hlevel : level ∈ walkLevels graph) :
    level.fst.ids.Nodup :=
  (List.nodup_flatMap.mp h).left level hlevel

theorem node_unique {graph : GraphLevel Number} (h : UniqueIds graph)
    {first second : GraphLevel Number × ScopePath} (hfirst : first ∈ walkLevels graph)
    (hsecond : second ∈ walkLevels graph) {node other : WorkflowNode Number}
    (hnode : node ∈ first.fst.nodes) (hother : other ∈ second.fst.nodes)
    (hid : nodeId node = nodeId other) : node = other ∧ first = second := by
  have hlevels := level_unique h hfirst hsecond (List.mem_map_of_mem hnode)
    (hid ▸ List.mem_map_of_mem hother)
  subst hlevels
  exact ⟨List.inj_on_of_nodup_map (nodup_ids h hfirst) hnode hother hid, rfl⟩

theorem scopeOf_eq_some {graph : GraphLevel Number} (h : UniqueIds graph)
    {level : GraphLevel Number × ScopePath} (hlevel : level ∈ walkLevels graph)
    {id : ScriptString} (hid : id ∈ level.fst.ids) : scopeOf graph id = some level.snd := by
  rw [scopeOf]
  cases hfind : (walkLevels graph).find? fun level => level.fst.ids.contains id with
  | none =>
      have hnone := List.find?_eq_none.mp hfind level hlevel
      simp [hid] at hnone
  | some found =>
      have hfound := List.find?_some hfind
      rw [level_unique h (List.mem_of_find?_eq_some hfind) hlevel (by simpa using hfound) hid]
      rfl

theorem exists_of_scopeOf {graph : GraphLevel Number} {id : ScriptString} {scope : ScopePath}
    (h : scopeOf graph id = some scope) :
    exists level, (level, scope) ∈ walkLevels graph ∧ id ∈ level.ids := by
  rw [scopeOf, Option.map_eq_some_iff] at h
  rcases h with ⟨⟨level, found⟩, hfind, rfl⟩
  have hid := List.find?_some hfind
  exact ⟨level, List.mem_of_find?_eq_some hfind, by simpa using hid⟩

theorem scope_unique {graph first second : GraphLevel Number} {scope : ScopePath}
    (h : UniqueIds graph) (hfirst : (first, scope) ∈ walkLevels graph)
    (hsecond : (second, scope) ∈ walkLevels graph) : first = second := by
  rw [mem_walkLevels] at hfirst hsecond
  generalize hscope : scope = other at hsecond
  cases hfirst with
  | workflow =>
      cases hsecond with
      | workflow => rfl
      | body _ _ => simp at hscope
  | body hlevel hnode =>
      cases hsecond with
      | workflow => simp at hscope
      | body hlevel' hnode' =>
          have hlast := (List.append_inj' hscope rfl).right
          have hid := List.singleton_inj.mp hlast
          have hsame := node_unique h (mem_walkLevels.mpr hlevel) (mem_walkLevels.mpr hlevel')
            hnode hnode' hid
          cases hsame.left
          rfl

theorem loop_stored {graph level : GraphLevel Number} {scope : ScopePath} {id : ScriptString}
    (h : (level, scope) ∈ walkLevels graph) (hid : loopOf scope = some id) :
    exists parent, parent ∈ walkLevels graph ∧ exists fields loop body,
      WorkflowNode.structured fields loop body ∈ parent.fst.nodes ∧ fields.id = id := by
  rw [mem_walkLevels] at h
  cases h with
  | workflow => cases hid
  | @body parent scope fields loop body hlevel hnode =>
      refine ⟨(parent, scope), mem_walkLevels.mpr hlevel, fields, loop, body, hnode, ?_⟩
      rw [loopOf, List.getLast?_append] at hid
      simpa using hid

end

end Bodies
end Pertexo
