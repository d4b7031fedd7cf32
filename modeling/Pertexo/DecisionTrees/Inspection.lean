import Pertexo.Engine.Executable
import Pertexo.Library.RootedTrees

/-!
# Decision trees

A single selected path can be frozen only without fan-out or convergence: every step is
entered by one link at most, and only a Condition or an Approval has several links out.
-/

namespace Pertexo
namespace DecisionTrees

open Library
open Engine

structure DecisionTreeNode where
  record : NodeRecord
  structured : Bool := false
deriving DecidableEq

def DecisionTreeNode.id (node : DecisionTreeNode) : String :=
  node.record.id

def DecisionTreeNode.key (node : DecisionTreeNode) : String :=
  node.record.definition.key

def excludedControls : List String :=
  ["core.switch", "core.parallel", "core.merge", "core.foreach", "core.wait", "core.call"]

def isWorkflowTriggerKey (key : String) : Bool :=
  workflowTriggerKeys.contains key

def isDecisionKey (key : String) : Bool :=
  ["core.condition", "core.approval"].contains key

def nodePreventsDecisionTree (node : DecisionTreeNode) : Bool :=
  (excludedControls.contains node.key && !isCallbackWaitNode node.record) ||
    node.structured ||
    (isDecisionKey node.key && node.record.disabled) ||
    (["core.condition", "core.approval", "core.terminate"].contains node.key &&
      node.record.definition.version != 1)

def decisionPorts (key : String) : List String :=
  if key == "core.approval" then ["approved", "rejected"] else ["true", "false"]

/-!
## Appending links
-/

abbrev EdgesBySource := Keyed (String × List WorkflowEdge) Prod.fst

def edgesFrom (outgoing : EdgesBySource) (nodeId : String) : List WorkflowEdge :=
  ((outgoing.get? nodeId).map Prod.snd).getD []

structure DecisionEdges where
  incoming : List String
  outgoing : EdgesBySource

abbrev DecisionNodes := Keyed DecisionTreeNode DecisionTreeNode.id

def siblingsAllow (source : DecisionTreeNode) (siblings : List WorkflowEdge)
    (edge : WorkflowEdge) : Bool :=
  if isDecisionKey source.key then
    (decisionPorts source.key).contains edge.source.port &&
      !siblings.any fun sibling => sibling.source.port == edge.source.port
  else siblings.isEmpty

def appendDecisionEdge (nodes : DecisionNodes) (context : DecisionEdges) (edge : WorkflowEdge) :
    Option DecisionEdges :=
  match nodes.get? edge.source.nodeId with
  | none => none
  | some source =>
      if !nodes.has edge.target.nodeId || context.incoming.contains edge.target.nodeId ||
          source.key == "core.terminate" then none
      else
        let siblings := edgesFrom context.outgoing source.id
        if siblingsAllow source siblings edge then
          some
            { incoming := context.incoming ++ [edge.target.nodeId]
              outgoing := context.outgoing.set (source.id, siblings ++ [edge]) }
        else none

def noDecisionEdges : DecisionEdges :=
  { incoming := [], outgoing := Keyed.empty }

/-!
## Inspecting a graph
-/

structure WorkflowDecisionTree where
  rootId : String
  outgoing : EdgesBySource

def targetsFrom (outgoing : EdgesBySource) (nodeId : String) : List String :=
  (edgesFrom outgoing nodeId).map fun edge => edge.target.nodeId

/-- The one step that no link enters must be a trigger, and lead to every other step. -/
def treeFromLinks (nodes : List DecisionTreeNode) (edgeCount : Nat) (context : DecisionEdges) :
    Option WorkflowDecisionTree :=
  match nodes.filter fun node => !context.incoming.contains node.id with
  | [root] =>
      if isWorkflowTriggerKey root.key then
        match visit (targetsFrom context.outgoing) (edgeCount + 2) [] [root.id] with
        | none => none
        | some reached =>
            if reached.length == nodes.length then
              some { rootId := root.id, outgoing := context.outgoing }
            else none
      else none
  | _ => none

def inspectWorkflowDecisionTree (nodes : List DecisionTreeNode) (edges : List WorkflowEdge) :
    Option WorkflowDecisionTree :=
  let byId : DecisionNodes := Keyed.ofList nodes
  if byId.items.isEmpty || byId.items.length != nodes.length then none
  else if nodes.any nodePreventsDecisionTree then none
  else
    match edges.foldlM (appendDecisionEdge byId) noDecisionEdges with
    | none => none
    | some context => treeFromLinks nodes edges.length context

/-!
## Decision trees
-/

def sourceId (edge : WorkflowEdge) : String :=
  edge.source.nodeId

def targetId (edge : WorkflowEdge) : String :=
  edge.target.nodeId

/-- Links out of one step leave it by different ports of a decision. -/
def DecidesBetween (nodes : List DecisionTreeNode) (edge other : WorkflowEdge) : Prop :=
  sourceId edge = sourceId other ->
    (exists source, source ∈ nodes ∧ source.id = sourceId edge ∧ isDecisionKey source.key = true) ∧
      edge.source.port ≠ other.source.port

structure HasDecisionLinks (nodes : List DecisionTreeNode) (edges : List WorkflowEdge) : Prop where
  sources : forall edge, edge ∈ edges -> exists source, source ∈ nodes ∧
    source.id = sourceId edge ∧ source.key ≠ "core.terminate" ∧
    (isDecisionKey source.key = true -> edge.source.port ∈ decisionPorts source.key)
  targets : forall edge, edge ∈ edges -> exists target, target ∈ nodes ∧ target.id = targetId edge
  fans : edges.Pairwise (DecidesBetween nodes)

/-- Every step ends exactly one chain of links from the one trigger of the graph. -/
structure IsDecisionTree (nodes : List DecisionTreeNode) (edges : List WorkflowEdge)
    (rootId : String) : Prop where
  distinct : (nodes.map DecisionTreeNode.id).Nodup
  allowed : forall node, node ∈ nodes -> nodePreventsDecisionTree node = false
  links : HasDecisionLinks nodes edges
  nodup : edges.Nodup
  root : exists root, root ∈ nodes ∧ root.id = rootId ∧ isWorkflowTriggerKey root.key = true
  walks : forall node, node ∈ nodes ->
    ∃! path, IsWalk sourceId targetId edges rootId path node.id

/-!
## Links appended so far
-/

structure Appended (done : List WorkflowEdge) (context : DecisionEdges) : Prop where
  incoming : context.incoming = done.map targetId
  outgoing : forall nodeId, edgesFrom context.outgoing nodeId =
    done.filter fun edge => sourceId edge == nodeId

theorem appended_noDecisionEdges : Appended [] noDecisionEdges where
  incoming := rfl
  outgoing := fun _ => rfl

theorem edgesFrom_set (outgoing : EdgesBySource) (id nodeId : String)
    (edges : List WorkflowEdge) :
    edgesFrom (outgoing.set (id, edges)) nodeId =
      if nodeId = id then edges else edgesFrom outgoing nodeId := by
  unfold edgesFrom
  rw [Keyed.get?_set]
  split
  · rfl
  · rfl

structure MayFollow (nodes : List DecisionTreeNode) (done : List WorkflowEdge)
    (edge : WorkflowEdge) : Prop where
  source : exists source, source ∈ nodes ∧ source.id = sourceId edge ∧
    source.key ≠ "core.terminate" ∧
    (isDecisionKey source.key = true -> edge.source.port ∈ decisionPorts source.key)
  target : exists target, target ∈ nodes ∧ target.id = targetId edge
  fresh : targetId edge ∉ done.map targetId
  decides : forall other, other ∈ done -> DecidesBetween nodes other edge

section

variable {nodes : List DecisionTreeNode}

theorem get?_nodes (hdistinct : (nodes.map DecisionTreeNode.id).Nodup) {nodeId : String}
    {node : DecisionTreeNode} :
    (Keyed.ofList nodes : DecisionNodes).get? nodeId = some node ↔
      node ∈ nodes ∧ node.id = nodeId := by
  rw [Keyed.get?_eq_some_iff, Keyed.mem_ofList hdistinct]

theorem eq_of_id (hdistinct : (nodes.map DecisionTreeNode.id).Nodup)
    {node other : DecisionTreeNode} (hnode : node ∈ nodes) (hother : other ∈ nodes)
    (hsame : node.id = other.id) : node = other :=
  List.inj_on_of_nodup_map hdistinct hnode hother hsame

theorem siblingsAllow_iff (hdistinct : (nodes.map DecisionTreeNode.id).Nodup)
    {done : List WorkflowEdge} {source : DecisionTreeNode} (hsource : source ∈ nodes)
    {edge : WorkflowEdge} (hid : source.id = sourceId edge) :
    siblingsAllow source (done.filter fun other => sourceId other == source.id) edge = true ↔
      (isDecisionKey source.key = true -> edge.source.port ∈ decisionPorts source.key) ∧
        forall other, other ∈ done -> DecidesBetween nodes other edge := by
  have hsibling : forall other, other ∈ done.filter (fun other => sourceId other == source.id) ↔
      other ∈ done ∧ sourceId other = sourceId edge := by
    intro other
    rw [List.mem_filter, beq_iff_eq, hid]
  unfold siblingsAllow
  split
  · next hdecision =>
    rw [Bool.and_eq_true, List.contains_iff_mem, Bool.not_eq_true', List.any_eq_false]
    constructor
    · rintro ⟨hport, hfresh⟩
      refine ⟨fun _ => hport, ?_⟩
      intro other hother hsame
      refine ⟨⟨source, hsource, hid.trans hsame.symm, hdecision⟩, ?_⟩
      have hdiffers := hfresh other ((hsibling other).mpr ⟨hother, hsame⟩)
      simpa using hdiffers
    · rintro ⟨hport, hdecides⟩
      refine ⟨hport hdecision, ?_⟩
      intro other hother
      rcases (hsibling other).mp hother with ⟨hmem, hsame⟩
      simpa using (hdecides other hmem hsame).right
  · next hplain =>
    rw [List.isEmpty_iff, List.eq_nil_iff_forall_not_mem]
    constructor
    · intro hnone
      refine ⟨fun hdecision => absurd hdecision hplain, ?_⟩
      intro other hother hsame
      exact absurd ((hsibling other).mpr ⟨hother, hsame⟩) (hnone other)
    · rintro ⟨_, hdecides⟩ other hother
      rcases (hsibling other).mp hother with ⟨hmem, hsame⟩
      rcases (hdecides other hmem hsame).left with ⟨found, hfound, hfoundId, hdecision⟩
      rw [eq_of_id hdistinct hfound hsource (hfoundId.trans (hsame.trans hid.symm))] at hdecision
      exact hplain hdecision

theorem has_nodes_iff (hdistinct : (nodes.map DecisionTreeNode.id).Nodup) {nodeId : String} :
    (Keyed.ofList nodes : DecisionNodes).has nodeId = true ↔
      exists node, node ∈ nodes ∧ node.id = nodeId := by
  rw [Keyed.has_iff]
  apply exists_congr
  intro node
  rw [Keyed.mem_ofList hdistinct]

theorem guarded_eq_some_iff {refused allowed : Bool} {value next : DecisionEdges} :
    (if refused then none else if allowed then some value else none) = some next ↔
      refused = false ∧ allowed = true ∧ next = value := by
  cases refused with
  | true => simp
  | false =>
      cases allowed with
      | false => simp
      | true => simp [eq_comm]

theorem appendDecisionEdge_eq_some_iff (hdistinct : (nodes.map DecisionTreeNode.id).Nodup)
    {done : List WorkflowEdge} {context next : DecisionEdges} (h : Appended done context)
    {edge : WorkflowEdge} :
    appendDecisionEdge (Keyed.ofList nodes) context edge = some next ↔
      MayFollow nodes done edge ∧
        next =
          { incoming := context.incoming ++ [targetId edge]
            outgoing := context.outgoing.set
              (sourceId edge, edgesFrom context.outgoing (sourceId edge) ++ [edge]) } := by
  unfold appendDecisionEdge
  split
  · next hnone =>
    constructor
    · intro hfalse
      cases hfalse
    · rintro ⟨⟨⟨source, hsource, hid, _⟩, _, _, _⟩, _⟩
      have hsome := (get?_nodes hdistinct).mpr ⟨hsource, hid⟩
      rw [sourceId, hnone] at hsome
      cases hsome
  · next source hsome =>
    rcases (get?_nodes hdistinct).mp hsome with ⟨hsource, hid⟩
    have hsame : source.id = sourceId edge := hid
    have hallow := @siblingsAllow_iff _ hdistinct done source hsource edge hid
    have hentered : context.incoming.contains edge.target.nodeId = false ↔
        targetId edge ∉ done.map targetId := by
      rw [← Bool.not_eq_true, List.contains_iff_mem, h.incoming]
      rfl
    dsimp only
    rw [guarded_eq_some_iff, h.outgoing, hallow, Bool.or_eq_false_iff, Bool.or_eq_false_iff,
      Bool.not_eq_false', has_nodes_iff hdistinct, hentered, beq_eq_false_iff_ne, hsame,
      ← h.outgoing]
    constructor
    · rintro ⟨⟨⟨htarget, hfresh⟩, hplain⟩, ⟨hport, hdecides⟩, hnext⟩
      exact ⟨⟨⟨source, hsource, hid, hplain, hport⟩, htarget, hfresh, hdecides⟩, hnext⟩
    · rintro ⟨⟨⟨found, hfound, hfoundId, hplain, hport⟩, htarget, hfresh, hdecides⟩, hnext⟩
      obtain rfl := eq_of_id hdistinct hfound hsource (hfoundId.trans hid.symm)
      exact ⟨⟨⟨htarget, hfresh⟩, hplain⟩, ⟨hport, hdecides⟩, hnext⟩

theorem Appended.append {done : List WorkflowEdge} {context : DecisionEdges}
    (h : Appended done context) (edge : WorkflowEdge) :
    Appended (done ++ [edge])
      { incoming := context.incoming ++ [targetId edge]
        outgoing := context.outgoing.set
          (sourceId edge, edgesFrom context.outgoing (sourceId edge) ++ [edge]) } where
  incoming := by rw [h.incoming, List.map_append, List.map_singleton]
  outgoing := by
    intro nodeId
    rw [edgesFrom_set, h.outgoing, h.outgoing, List.filter_append]
    split
    · next hsame => simp [hsame]
    · next hother => simp [Ne.symm hother]

/-- Links that may follow one another in order are the links of a decision tree. -/
theorem hasDecisionLinks_append_iff {done : List WorkflowEdge} {edge : WorkflowEdge} :
    (HasDecisionLinks nodes (done ++ [edge]) ∧ ((done ++ [edge]).map targetId).Nodup) ↔
      (HasDecisionLinks nodes done ∧ (done.map targetId).Nodup) ∧ MayFollow nodes done edge := by
  have hlast : ((done ++ [edge]).map targetId).Nodup ↔
      (done.map targetId).Nodup ∧ targetId edge ∉ done.map targetId := by
    rw [List.map_append, List.map_singleton, List.nodup_append_comm, List.singleton_append,
      List.nodup_cons]
    exact and_comm
  have hfans : (done ++ [edge]).Pairwise (DecidesBetween nodes) ↔
      done.Pairwise (DecidesBetween nodes) ∧
        forall other, other ∈ done -> DecidesBetween nodes other edge := by
    simp [List.pairwise_append]
  rw [hlast]
  constructor
  · rintro ⟨⟨hsources, htargets, hpairs⟩, hdone, hfresh⟩
    rw [List.forall_mem_append, List.forall_mem_singleton] at hsources htargets
    rw [hfans] at hpairs
    exact ⟨⟨⟨hsources.left, htargets.left, hpairs.left⟩, hdone⟩,
      ⟨hsources.right, htargets.right, hfresh, hpairs.right⟩⟩
  · rintro ⟨⟨⟨hsources, htargets, hpairs⟩, hdone⟩, hsource, htarget, hfresh, hdecides⟩
    refine ⟨⟨?_, ?_, hfans.mpr ⟨hpairs, hdecides⟩⟩, hdone, hfresh⟩
    · rw [List.forall_mem_append, List.forall_mem_singleton]
      exact ⟨hsources, hsource⟩
    · rw [List.forall_mem_append, List.forall_mem_singleton]
      exact ⟨htargets, htarget⟩

theorem foldlM_appendDecisionEdge (hdistinct : (nodes.map DecisionTreeNode.id).Nodup)
    (edges : List WorkflowEdge) :
    (forall context, edges.foldlM (appendDecisionEdge (Keyed.ofList nodes)) noDecisionEdges =
        some context ->
      Appended edges context ∧ HasDecisionLinks nodes edges ∧ (edges.map targetId).Nodup) ∧
      (HasDecisionLinks nodes edges -> (edges.map targetId).Nodup ->
        exists context, edges.foldlM (appendDecisionEdge (Keyed.ofList nodes)) noDecisionEdges =
          some context) := by
  induction edges using List.reverseRecOn with
  | nil =>
      constructor
      · intro context h
        cases h
        refine ⟨appended_noDecisionEdges, ⟨?_, ?_, List.Pairwise.nil⟩, List.nodup_nil⟩
        · intro edge hedge
          cases hedge
        · intro edge hedge
          cases hedge
      · intro _ _
        exact ⟨noDecisionEdges, rfl⟩
  | append_singleton done edge ih =>
      rw [List.foldlM_append]
      constructor
      · intro context h
        rcases Option.bind_eq_some_iff.mp h with ⟨before, hbefore, hlast⟩
        rcases Option.bind_eq_some_iff.mp hlast with ⟨next, hnext, hdone⟩
        cases hdone
        rcases ih.left before hbefore with ⟨happended, hlinks⟩
        rcases (appendDecisionEdge_eq_some_iff hdistinct happended).mp hnext with ⟨hmay, rfl⟩
        exact ⟨happended.append edge, hasDecisionLinks_append_iff.mpr ⟨hlinks, hmay⟩⟩
      · intro hlinks hnodup
        rcases hasDecisionLinks_append_iff.mp ⟨hlinks, hnodup⟩ with ⟨⟨hold, holdNodup⟩, hmay⟩
        rcases ih.right hold holdNodup with ⟨before, hbefore⟩
        have happended := (ih.left before hbefore).left
        have hstep : exists next,
            appendDecisionEdge (Keyed.ofList nodes) before edge = some next :=
          ⟨_, (appendDecisionEdge_eq_some_iff hdistinct happended).mpr ⟨hmay, rfl⟩⟩
        rcases hstep with ⟨next, hnext⟩
        refine ⟨next, Option.bind_eq_some_iff.mpr ⟨before, hbefore, ?_⟩⟩
        exact Option.bind_eq_some_iff.mpr ⟨next, hnext, rfl⟩

/-!
## The root
-/

def linkEnds (edges : List WorkflowEdge) : List (String × String) :=
  edges.map fun edge => (sourceId edge, targetId edge)

theorem targetsFrom_eq {edges : List WorkflowEdge} {context : DecisionEdges}
    (h : Appended edges context) :
    targetsFrom context.outgoing = followers (linkEnds edges) := by
  funext nodeId
  rw [targetsFrom, h.outgoing, followers, linkEnds, List.filter_map, List.map_map]
  rfl

theorem isRooted_linkEnds {edges : List WorkflowEdge} {rootId : String}
    (h : IsRooted targetId edges rootId) : IsRooted Prod.snd (linkEnds edges) rootId := by
  have htargets : (linkEnds edges).map Prod.snd = edges.map targetId := by
    rw [linkEnds, List.map_map]
    rfl
  constructor
  · rw [htargets]
    exact h.entered_once
  · rw [htargets]
    exact h.not_entered

theorem roots_eq_singleton_iff (hdistinct : (nodes.map DecisionTreeNode.id).Nodup)
    {incoming : List String} {root : DecisionTreeNode} :
    (nodes.filter fun node => !incoming.contains node.id) = [root] ↔
      root ∈ nodes ∧ root.id ∉ incoming ∧
        forall node, node ∈ nodes -> node.id ∉ incoming -> node = root := by
  have hmem : forall node, node ∈ nodes.filter (fun node => !incoming.contains node.id) ↔
      node ∈ nodes ∧ node.id ∉ incoming := by
    intro node
    rw [List.mem_filter, Bool.not_eq_true', ← Bool.not_eq_true, List.contains_iff_mem]
  constructor
  · intro h
    have hroot := (hmem root).mp (h ▸ List.mem_singleton_self root)
    refine ⟨hroot.left, hroot.right, ?_⟩
    intro node hnode hfresh
    have hfound := (hmem node).mpr ⟨hnode, hfresh⟩
    rw [h] at hfound
    exact List.mem_singleton.mp hfound
  · rintro ⟨hroot, hfresh, honly⟩
    have hnodup : (nodes.filter fun node => !incoming.contains node.id).Nodup :=
      hdistinct.of_map.filter _
    have hperm : (nodes.filter fun node => !incoming.contains node.id).Perm [root] := by
      rw [List.perm_ext_iff_of_nodup hnodup (List.nodup_singleton root)]
      intro node
      rw [hmem, List.mem_singleton]
      constructor
      · rintro ⟨hnode, hnone⟩
        exact honly node hnode hnone
      · rintro rfl
        exact ⟨hroot, hfresh⟩
    exact List.perm_singleton.mp hperm

theorem length_reach_iff (hdistinct : (nodes.map DecisionTreeNode.id).Nodup)
    {edges : List WorkflowEdge} (hlinks : HasDecisionLinks nodes edges)
    {root : DecisionTreeNode} (hroot : root ∈ nodes) :
    (reach (linkEnds edges) [root.id]).length = nodes.length ↔
      forall node, node ∈ nodes -> exists path,
        IsWalk sourceId targetId edges root.id path node.id := by
  have hnodup := nodup_reach (linkEnds edges) [root.id]
  have hknown : forall id, id ∈ reach (linkEnds edges) [root.id] ->
      id ∈ nodes.map DecisionTreeNode.id := by
    intro id
    apply mem_of_mem_reach
    · intro first hfirst
      rw [List.mem_singleton.mp hfirst]
      exact List.mem_map_of_mem hroot
    · intro source target hlink
      rcases List.mem_map.mp hlink with ⟨edge, hedge, hends⟩
      cases hends
      rcases hlinks.targets edge hedge with ⟨node, hnode, hid⟩
      exact List.mem_map.mpr ⟨node, hnode, hid⟩
  have hreached : forall node : DecisionTreeNode,
      node.id ∈ reach (linkEnds edges) [root.id] ↔
        exists path, IsWalk sourceId targetId edges root.id path node.id := by
    intro node
    rw [mem_reach, exists_isWalk_iff]
    constructor
    · rintro ⟨first, hfirst, hpath⟩
      rw [List.mem_singleton.mp hfirst] at hpath
      exact hpath
    · intro hpath
      exact ⟨root.id, List.mem_singleton_self _, hpath⟩
  have hsubperm := List.subperm_of_subset hnodup hknown
  rw [← List.length_map DecisionTreeNode.id]
  constructor
  · intro hlength node hnode
    have hperm := hsubperm.perm_of_length_le (Nat.le_of_eq hlength.symm)
    exact (hreached node).mp (hperm.mem_iff.mpr (List.mem_map_of_mem hnode))
  · intro hall
    apply Nat.le_antisymm hsubperm.length_le
    apply (List.subperm_of_subset hdistinct _).length_le
    intro id hid
    rcases List.mem_map.mp hid with ⟨node, hnode, rfl⟩
    exact (hreached node).mpr (hall node hnode)

theorem treeFromLinks_eq_some_iff (hdistinct : (nodes.map DecisionTreeNode.id).Nodup)
    {edges : List WorkflowEdge} {context : DecisionEdges} (happended : Appended edges context)
    (hlinks : HasDecisionLinks nodes edges) (hentered : (edges.map targetId).Nodup)
    {tree : WorkflowDecisionTree} :
    treeFromLinks nodes edges.length context = some tree ↔
      exists root, root ∈ nodes ∧ isWorkflowTriggerKey root.key = true ∧
        IsRooted targetId edges root.id ∧
        (forall node, node ∈ nodes -> exists path,
          IsWalk sourceId targetId edges root.id path node.id) ∧
        tree = { rootId := root.id, outgoing := context.outgoing } := by
  have hvisit : forall root : DecisionTreeNode, IsRooted targetId edges root.id ->
      visit (targetsFrom context.outgoing) (edges.length + 2) [] [root.id] =
        some (reach (linkEnds edges) [root.id]) := by
    intro root hrooted
    have hcount : edges.length = (linkEnds edges).length := (List.length_map _).symm
    rw [targetsFrom_eq happended, hcount]
    exact (isRooted_linkEnds hrooted).visit_root
  unfold treeFromLinks
  constructor
  · intro h
    split at h
    · next root hroots =>
      rcases (roots_eq_singleton_iff hdistinct).mp hroots with ⟨hroot, hfresh, _⟩
      rw [happended.incoming] at hfresh
      have hrooted : IsRooted targetId edges root.id := ⟨hentered, hfresh⟩
      rw [hvisit root hrooted] at h
      split at h
      · next htrigger =>
        dsimp only at h
        split at h
        · next hlength =>
          cases h
          exact ⟨root, hroot, htrigger, hrooted,
            (length_reach_iff hdistinct hlinks hroot).mp (beq_iff_eq.mp hlength), rfl⟩
        · cases h
      · cases h
    · cases h
  · rintro ⟨root, hroot, htrigger, hrooted, hwalks, rfl⟩
    have hroots : (nodes.filter fun node => !context.incoming.contains node.id) = [root] := by
      rw [roots_eq_singleton_iff hdistinct, happended.incoming]
      refine ⟨hroot, hrooted.not_entered, ?_⟩
      intro node hnode hfresh
      rcases hwalks node hnode with ⟨path, hpath⟩
      rcases List.eq_nil_or_concat path with rfl | ⟨before, last, rfl⟩
      · exact (eq_of_id hdistinct hroot hnode hpath).symm
      · rw [List.concat_eq_append] at hpath
        rcases isWalk_concat.mp hpath with ⟨_, hlast, hid⟩
        exact absurd (List.mem_map.mpr ⟨last, hlast, hid⟩) hfresh
    have hlength := (length_reach_iff hdistinct hlinks hroot).mpr hwalks
    rw [hroots]
    dsimp only
    rw [if_pos htrigger, hvisit root hrooted]
    dsimp only
    rw [if_pos (beq_iff_eq.mpr hlength)]

/-!
## What the inspection accepts
-/

theorem isDecisionTree_iff {edges : List WorkflowEdge} {rootId : String} :
    IsDecisionTree nodes edges rootId ↔
      (nodes.map DecisionTreeNode.id).Nodup ∧
        (forall node, node ∈ nodes -> nodePreventsDecisionTree node = false) ∧
        HasDecisionLinks nodes edges ∧
        exists root, root ∈ nodes ∧ root.id = rootId ∧ isWorkflowTriggerKey root.key = true ∧
          IsRooted targetId edges root.id ∧
          forall node, node ∈ nodes -> exists path,
            IsWalk sourceId targetId edges root.id path node.id := by
  constructor
  · rintro ⟨hdistinct, hallowed, hlinks, hnodup, ⟨root, hroot, rfl, htrigger⟩, hwalks⟩
    refine ⟨hdistinct, hallowed, hlinks, root, hroot, rfl, htrigger, ?_, ?_⟩
    · apply @isRooted_of_walks _ _ sourceId _ _ _ hnodup
      · intro edge hedge
        rcases hlinks.sources edge hedge with ⟨source, hsource, hid, _⟩
        rcases hwalks source hsource with ⟨path, hpath, _⟩
        exact ⟨path, hid ▸ hpath⟩
      · intro path other finish hpath hother
        have hfinish : exists node, node ∈ nodes ∧ node.id = finish := by
          rcases List.eq_nil_or_concat path with rfl | ⟨before, last, rfl⟩
          · exact ⟨root, hroot, hpath⟩
          · rw [List.concat_eq_append] at hpath
            rcases isWalk_concat.mp hpath with ⟨_, hlast, rfl⟩
            exact hlinks.targets last hlast
        rcases hfinish with ⟨node, hnode, rfl⟩
        exact (hwalks node hnode).unique hpath hother
    · intro node hnode
      exact (hwalks node hnode).exists
  · rintro ⟨hdistinct, hallowed, hlinks, root, hroot, rfl, htrigger, hrooted, hwalks⟩
    refine ⟨hdistinct, hallowed, hlinks, hrooted.entered_once.of_map, ⟨root, hroot, rfl, htrigger⟩,
      ?_⟩
    intro node hnode
    rcases hwalks node hnode with ⟨path, hpath⟩
    exact ⟨path, hpath, fun other hother => hrooted.walk_unique hother hpath⟩

theorem nodup_of_length_ofList
    (h : (Keyed.ofList nodes : DecisionNodes).items.length = nodes.length) :
    (nodes.map DecisionTreeNode.id).Nodup := by
  have hkeys := (Keyed.ofList nodes : DecisionNodes).nodup
  have hsubset : forall id, id ∈ (Keyed.ofList nodes : DecisionNodes).items.map
      DecisionTreeNode.id -> id ∈ nodes.map DecisionTreeNode.id := by
    intro id hid
    rcases List.mem_map.mp hid with ⟨node, hnode, rfl⟩
    exact List.mem_map_of_mem (Keyed.mem_of_mem_ofList hnode)
  have hperm := (List.subperm_of_subset hkeys hsubset).perm_of_length_le (by
    rw [List.length_map, List.length_map, h])
  exact hperm.nodup_iff.mp hkeys

theorem isDecisionTree_of_inspect {edges : List WorkflowEdge} {tree : WorkflowDecisionTree}
    (h : inspectWorkflowDecisionTree nodes edges = some tree) :
    IsDecisionTree nodes edges tree.rootId ∧ forall nodeId, edgesFrom tree.outgoing nodeId =
      edges.filter fun edge => sourceId edge == nodeId := by
  unfold inspectWorkflowDecisionTree at h
  dsimp only at h
  split at h
  · cases h
  · next hsize =>
    rw [Bool.or_eq_true, not_or, bne_iff_ne, not_not] at hsize
    have hdistinct := nodup_of_length_ofList hsize.right
    split at h
    · cases h
    · next hallowed =>
      rw [Bool.not_eq_true, List.any_eq_false] at hallowed
      split at h
      · cases h
      · next context hcontext =>
        rcases (foldlM_appendDecisionEdge hdistinct edges).left context hcontext with
          ⟨happended, hlinks, hentered⟩
        rcases (treeFromLinks_eq_some_iff hdistinct happended hlinks hentered).mp h with
          ⟨root, hroot, htrigger, hrooted, hwalks, rfl⟩
        refine ⟨isDecisionTree_iff.mpr ⟨hdistinct, ?_, hlinks, root, hroot, rfl, htrigger, hrooted,
          hwalks⟩, happended.outgoing⟩
        intro node hnode
        exact Bool.eq_false_iff.mpr (hallowed node hnode)

theorem exists_inspect_of_isDecisionTree {edges : List WorkflowEdge} {rootId : String}
    (h : IsDecisionTree nodes edges rootId) :
    exists tree, inspectWorkflowDecisionTree nodes edges = some tree ∧ tree.rootId = rootId := by
  rcases isDecisionTree_iff.mp h with
    ⟨hdistinct, hallowed, hlinks, root, hroot, rfl, htrigger, hrooted, hwalks⟩
  have hitems : (Keyed.ofList nodes : DecisionNodes).items = nodes := Keyed.ofList_items hdistinct
  have hnonempty : nodes.isEmpty = false := by
    rw [List.isEmpty_eq_false_iff]
    exact List.ne_nil_of_mem hroot
  have hprevents : nodes.any nodePreventsDecisionTree = false := by
    rw [List.any_eq_false]
    intro node hnode
    rw [hallowed node hnode]
    exact Bool.false_ne_true
  rcases (foldlM_appendDecisionEdge hdistinct edges).right hlinks hrooted.entered_once with
    ⟨context, hcontext⟩
  rcases (foldlM_appendDecisionEdge hdistinct edges).left context hcontext with ⟨happended, _⟩
  refine ⟨{ rootId := root.id, outgoing := context.outgoing }, ?_, rfl⟩
  unfold inspectWorkflowDecisionTree
  dsimp only
  rw [hitems, hnonempty, bne_self_eq_false, hprevents, hcontext]
  exact (treeFromLinks_eq_some_iff hdistinct happended hlinks hrooted.entered_once).mpr
    ⟨root, hroot, htrigger, hrooted, hwalks, rfl⟩

/-- The inspection accepts the decision trees, and groups their links by their source. -/
theorem decision_tree_exact (nodes : List DecisionTreeNode) (edges : List WorkflowEdge) :
    (forall rootId, (inspectWorkflowDecisionTree nodes edges).map WorkflowDecisionTree.rootId =
        some rootId ↔ IsDecisionTree nodes edges rootId) ∧
      forall tree, inspectWorkflowDecisionTree nodes edges = some tree -> forall nodeId,
        edgesFrom tree.outgoing nodeId = edges.filter fun edge => sourceId edge == nodeId := by
  constructor
  · intro rootId
    rw [Option.map_eq_some_iff]
    constructor
    · rintro ⟨tree, htree, rfl⟩
      exact (isDecisionTree_of_inspect htree).left
    · exact exists_inspect_of_isDecisionTree
  · intro tree htree
    exact (isDecisionTree_of_inspect htree).right

end

end DecisionTrees
end Pertexo
