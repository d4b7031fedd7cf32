import Pertexo.DecisionTrees.Inspection
import Pertexo.Library.Results

/-!
# Failure routes

A failure link leads from an action to a handler: steps in a row that no other link enters.
Besides the handlers a graph with failure links is a decision tree.

## Graphs with mappings
-/

namespace Pertexo
namespace DecisionTrees

open Library
open Engine

structure Mapping where
  kind : String
  nodeId : Option String := none
  path : Option String := none
deriving DecidableEq, Repr

inductive RoutingNode where
  | step (record : NodeRecord) (inputMappings : List (String × Mapping))
  | forEach (record : NodeRecord) (inputMappings : List (String × Mapping))
      (nodes : List RoutingNode) (edges : List WorkflowEdge) (callableResult : Option Mapping)

structure FailureRoutingGraph where
  nodes : List RoutingNode
  edges : List WorkflowEdge
  callableResult : Option Mapping := none

namespace RoutingNode

def record : RoutingNode -> NodeRecord
  | .step record _ => record
  | .forEach record _ _ _ _ => record

def inputMappings : RoutingNode -> List (String × Mapping)
  | .step _ inputMappings => inputMappings
  | .forEach _ inputMappings _ _ _ => inputMappings

def isStructured : RoutingNode -> Bool
  | .step _ _ => false
  | .forEach _ _ _ _ _ => true

def id (node : RoutingNode) : String :=
  node.record.id

def toDecision (node : RoutingNode) : DecisionTreeNode :=
  { record := node.record, structured := node.isStructured }

end RoutingNode

/-- Engine-owned alternative path, never a provider's successful output. -/
def workflowFailurePort : String :=
  "__failure"

def workflowFailureFields : List String :=
  ["nodeId", "invocationKey", "attemptNumber", "errorKind", "safeErrorCode"]

def workflowFailurePaths : List String :=
  "$" :: workflowFailureFields.map fun field => "$." ++ field

def isFailureLink (edge : WorkflowEdge) : Bool :=
  edge.source.port == workflowFailurePort

def edgesInto (edges : List WorkflowEdge) (nodeId : String) : List WorkflowEdge :=
  edges.filter fun edge => targetId edge == nodeId

def edgesOutOf (edges : List WorkflowEdge) (nodeId : String) : List WorkflowEdge :=
  edges.filter fun edge => sourceId edge == nodeId

/-!
## Following a handler
-/

structure WorkflowFailureRoute where
  sourceNodeId : String
  entryNodeId : String
  sinkNodeId : String
  handlerNodeIds : List String
deriving DecidableEq, Repr

abbrev HandlerOwners := Keyed (String × String) Prod.fst

abbrev RoutingNodes := Keyed RoutingNode RoutingNode.id

abbrev FailureRouteMap := Keyed WorkflowFailureRoute WorkflowFailureRoute.sourceNodeId

def refuse {α : Type} (message : String) : Except String α :=
  Except.error message

def isActionKey (key : String) : Bool :=
  !workflowTriggerKeys.contains key && !excludedFailureSources.contains key

def handlerPermissionIssue (node : RoutingNode) (incoming : List WorkflowEdge) :
    Except String Unit :=
  if (!isActionKey node.record.definition.key &&
        !(node.record.definition.key == "core.terminate" &&
          node.record.definition.version == 1)) ||
      node.isStructured || isHumanTaskDefinition node.record.definition then
    refuse "Failure handlers contain sequential actions and may end in Stop run."
  else if node.record.disabled then
    refuse "Failure handler steps cannot be disabled."
  else if incoming.length != 1 then
    refuse "A handler step must have one incoming link, with no normal-path convergence."
  else Except.ok ()

def handlersOverlap : String :=
  "Failure handlers cannot share steps, cycle or return to their source."

/-- Every step that is followed gets an owner, so no step is followed twice. -/
def followHandler (nodes : RoutingNodes) (edges : List WorkflowEdge) (sourceNodeId : String) :
    Nat -> Option String -> HandlerOwners -> List String ->
      Except String (HandlerOwners × List String)
  | _, none, owners, handler => Except.ok (owners, handler)
  | 0, some _, _, _ => refuse handlersOverlap
  | fuel + 1, some next, owners, handler =>
      match nodes.get? next with
      | none => refuse handlersOverlap
      | some node =>
          if node.id == sourceNodeId || owners.has node.id then refuse handlersOverlap
          else do
            handlerPermissionIssue node (edgesInto edges node.id)
            let after := edgesOutOf edges node.id
            if 1 < after.length || after.any isFailureLink then
              refuse "Failure handlers cannot branch or own another handler."
            else if node.record.definition.key == "core.terminate" && !after.isEmpty then
              refuse "Stop run must be a leaf."
            else
              followHandler nodes edges sourceNodeId fuel (after.head?.map targetId)
                (owners.set (node.id, sourceNodeId)) (handler ++ [node.id])

structure HandlerContext where
  owners : HandlerOwners := Keyed.empty
  routes : FailureRouteMap := Keyed.empty

def inspectHandler (nodes : RoutingNodes) (edges : List WorkflowEdge) (nodeCount : Nat)
    (context : HandlerContext) (failure : WorkflowEdge) : Except String HandlerContext :=
  match nodes.get? failure.source.nodeId with
  | none => refuse "Only ordinary actions can own a failure link."
  | some source =>
      if !isWorkflowFailureSource source.record || source.isStructured then
        refuse "Only ordinary actions can own a failure link."
      else if context.routes.has source.id then
        refuse "A step can have only one failure link."
      else do
        let followed ← followHandler nodes edges source.id (nodeCount + 1)
          (some failure.target.nodeId) context.owners []
        match followed.snd.getLast? with
        | none => refuse "A failure link needs a handler."
        | some sink =>
            Except.ok
              { owners := followed.fst
                routes := context.routes.set
                  { sourceNodeId := source.id
                    entryNodeId := failure.target.nodeId
                    sinkNodeId := sink
                    handlerNodeIds := followed.snd } }

/-!
## Inspecting a graph
-/

structure WorkflowFailureRoutes where
  main : WorkflowDecisionTree
  routes : FailureRouteMap
  handlerOwners : HandlerOwners

inductive FailureRoutingInspection where
  | ordinary
  | invalid (message : String)
  | routed (value : WorkflowFailureRoutes)

def FailureRoutingInspection.isOrdinary : FailureRoutingInspection -> Bool
  | .ordinary => true
  | _ => false

/-- Only the entry of a handler reads its source, and only the fields of its failure. -/
def inspectHandlerMapping (context : HandlerContext) (nodeId : String) (mapping : Mapping) :
    Except String Unit :=
  let owner := (context.owners.get? nodeId).map Prod.snd
  let entry := ((owner.bind fun sourceNodeId => context.routes.get? sourceNodeId).map
    WorkflowFailureRoute.entryNodeId)
  if mapping.kind == "node_failure" &&
      (entry != some nodeId || mapping.nodeId != owner ||
        !workflowFailurePaths.contains (mapping.path.getD "")) then
    refuse "Only the handler entry can read its source’s allowlisted failure fields."
  else if mapping.kind == "node_output" && entry == some nodeId && mapping.nodeId == owner then
    refuse "A failed source has failure fields, not a successful output."
  else Except.ok ()

def inspectHandlerMappings (nodes : List RoutingNode) (context : HandlerContext) :
    Except String Unit :=
  nodes.forM fun node => node.inputMappings.forM fun mapping =>
    inspectHandlerMapping context node.id mapping.snd

def mainNodes (nodes : List RoutingNode) (owners : HandlerOwners) : List DecisionTreeNode :=
  (nodes.filter fun node => !owners.has node.id).map RoutingNode.toDecision

def mainEdges (edges : List WorkflowEdge) (owners : HandlerOwners) : List WorkflowEdge :=
  edges.filter fun edge =>
    !isFailureLink edge && !owners.has (sourceId edge) && !owners.has (targetId edge)

def inspectRoutes (graph : FailureRoutingGraph) (failures : List WorkflowEdge) :
    Except String WorkflowFailureRoutes := do
  let nodes : RoutingNodes := Keyed.ofList graph.nodes
  let context ← failures.foldlM (inspectHandler nodes graph.edges graph.nodes.length) {}
  if context.routes.items.any fun route => context.owners.has route.sourceNodeId then
    refuse "A failure handler cannot own another failure link."
  else
    match inspectWorkflowDecisionTree (mainNodes graph.nodes context.owners)
        (mainEdges graph.edges context.owners) with
    | none =>
        refuse <| "Failure links require a root decision tree with Condition, Approval and " ++
          "leaf Stop run; joins, fan-out, loops, Wait and Calls are unsupported."
    | some main => do
        inspectHandlerMappings graph.nodes context
        pure { main := main, routes := context.routes, handlerOwners := context.owners }

def readsFailure (node : RoutingNode) : Bool :=
  node.inputMappings.any fun mapping => mapping.snd.kind == "node_failure"

def inspectLevel (graph : FailureRoutingGraph) (bodiesAreOrdinary : Bool) :
    FailureRoutingInspection :=
  if !bodiesAreOrdinary then
    .invalid "Failure links and failure data cannot occur inside loop bodies."
  else if graph.callableResult.any fun result => result.kind == "node_failure" then
    .invalid "Failure data belongs only to its handler entry, not a callable result."
  else
    let failures := graph.edges.filter isFailureLink
    if failures.isEmpty then
      if graph.nodes.any readsFailure then
        .invalid "Failure data requires its source’s failure link."
      else .ordinary
    else
      match inspectRoutes graph failures with
      | Except.error message => .invalid message
      | Except.ok value => .routed value

mutual

def bodyIsOrdinary : RoutingNode -> Bool
  | .step _ _ => true
  | .forEach _ _ nodes edges callableResult =>
      (inspectLevel { nodes := nodes, edges := edges, callableResult := callableResult }
        (bodiesAreOrdinary nodes)).isOrdinary

def bodiesAreOrdinary : List RoutingNode -> Bool
  | [] => true
  | node :: rest => bodyIsOrdinary node && bodiesAreOrdinary rest

end

/-- One ownership and shape rule shared by authoring, compilation and execution. -/
def inspectWorkflowFailureRoutes (graph : FailureRoutingGraph) : FailureRoutingInspection :=
  inspectLevel graph (bodiesAreOrdinary graph.nodes)

/-!
## What following a handler finds
-/

def ownerOf (owners : HandlerOwners) (nodeId : String) : Option String :=
  (owners.get? nodeId).map Prod.snd

theorem ownerOf_set (owners : HandlerOwners) (id nodeId sourceNodeId : String) :
    ownerOf (owners.set (id, sourceNodeId)) nodeId =
      if nodeId = id then some sourceNodeId else ownerOf owners nodeId := by
  unfold ownerOf
  rw [Keyed.get?_set]
  split
  · rfl
  · rfl

theorem has_owner_iff {owners : HandlerOwners} {nodeId : String} :
    owners.has nodeId = true ↔ exists sourceNodeId, ownerOf owners nodeId = some sourceNodeId := by
  unfold ownerOf Keyed.has
  cases owners.get? nodeId with
  | none => simp
  | some owner => simp

theorem has_eq_false_iff {owners : HandlerOwners} {nodeId : String} :
    owners.has nodeId = false ↔ ownerOf owners nodeId = none := by
  rw [← Bool.not_eq_true, has_owner_iff, Option.eq_none_iff_forall_ne_some, not_exists]

structure IsHandlerStep (graph : FailureRoutingGraph) (nodeId : String) : Prop where
  action : exists node, node ∈ graph.nodes ∧ node.id = nodeId ∧ node.isStructured = false ∧
    node.record.disabled = false ∧ isHumanTaskDefinition node.record.definition = false ∧
    (isActionKey node.record.definition.key = true ∨
      node.record.definition = { key := "core.terminate", version := 1 })
  entered : (edgesInto graph.edges nodeId).length = 1

/-- Steps in a row: each is left by the link that enters the next one, and the last by none. -/
def IsHandler (graph : FailureRoutingGraph) : List String -> Prop
  | [] => False
  | [last] => IsHandlerStep graph last ∧ edgesOutOf graph.edges last = []
  | first :: next :: rest =>
      IsHandlerStep graph first ∧
        (exists link, edgesOutOf graph.edges first = [link] ∧ targetId link = next ∧
          isFailureLink link = false) ∧
        IsHandler graph (next :: rest)

section

variable {graph : FailureRoutingGraph}

theorem IsHandler.step {handler : List String} (h : IsHandler graph handler) {nodeId : String}
    (hmem : nodeId ∈ handler) : IsHandlerStep graph nodeId := by
  induction handler with
  | nil => cases hmem
  | cons first rest ih =>
      cases rest with
      | nil =>
          rw [List.mem_singleton.mp hmem]
          exact h.left
      | cons next more =>
          rcases List.mem_cons.mp hmem with rfl | hrest
          · exact h.left
          · exact ih h.right.right hrest

theorem IsHandler.target_mem {handler : List String} (h : IsHandler graph handler)
    {link : WorkflowEdge} (hlink : link ∈ graph.edges) (hmem : sourceId link ∈ handler) :
    targetId link ∈ handler ∧ isFailureLink link = false := by
  have hleaves : link ∈ edgesOutOf graph.edges (sourceId link) :=
    List.mem_filter.mpr ⟨hlink, beq_self_eq_true _⟩
  induction handler with
  | nil => cases hmem
  | cons first rest ih =>
      cases rest with
      | nil =>
          rw [List.mem_singleton.mp hmem, h.right] at hleaves
          cases hleaves
      | cons next more =>
          rcases List.mem_cons.mp hmem with hfirst | hrest
          · rcases h.right.left with ⟨only, hout, rfl, hplain⟩
            rw [hfirst, hout, List.mem_singleton] at hleaves
            rw [hleaves]
            exact ⟨List.mem_cons_of_mem _ List.mem_cons_self, hplain⟩
          · rcases ih h.right.right hrest with ⟨htarget, hplain⟩
            exact ⟨List.mem_cons_of_mem _ htarget, hplain⟩

theorem IsHandler.leads {entry : String} {rest : List String}
    (h : IsHandler graph (entry :: rest)) {nodeId : String} (hmem : nodeId ∈ entry :: rest) :
    Relation.ReflTransGen (fun before after => (before, after) ∈ linkEnds graph.edges) entry
      nodeId := by
  induction rest generalizing entry with
  | nil =>
      rw [List.mem_singleton.mp hmem]
  | cons next more ih =>
      rcases List.mem_cons.mp hmem with rfl | hrest
      · exact Relation.ReflTransGen.refl
      · rcases h.right.left with ⟨link, hout, rfl, _⟩
        have hleaves : link ∈ edgesOutOf graph.edges entry := by
          rw [hout]
          exact List.mem_singleton_self link
        rcases List.mem_filter.mp hleaves with ⟨hlink, hsource⟩
        apply Relation.ReflTransGen.head _ (ih h.right.right hrest)
        rw [← beq_iff_eq.mp hsource]
        exact List.mem_map_of_mem hlink

/-- What following a handler has added: steps in a row that had no owner. -/
structure Follows (graph : FailureRoutingGraph) (sourceNodeId : String) (next : Option String)
    (owners after : HandlerOwners) (chain : List String) : Prop where
  entry : chain.head? = next
  steps : chain = [] ∨ IsHandler graph chain
  fresh : forall nodeId, nodeId ∈ chain -> ownerOf owners nodeId = none
  owned : forall nodeId, ownerOf after nodeId =
    if nodeId ∈ chain then some sourceNodeId else ownerOf owners nodeId

theorem isHandlerStep_of_permission {node : RoutingNode} (hnode : node ∈ graph.nodes)
    (h : handlerPermissionIssue node (edgesInto graph.edges node.id) = Except.ok ()) :
    IsHandlerStep graph node.id := by
  unfold handlerPermissionIssue at h
  split at h
  · cases h
  · next hsupported =>
    rw [Bool.or_eq_true, Bool.or_eq_true, not_or, not_or, Bool.not_eq_true, Bool.not_eq_true,
      Bool.not_eq_true, Bool.and_eq_false_iff, Bool.not_eq_false', Bool.not_eq_false',
      Bool.and_eq_true, beq_iff_eq, beq_iff_eq] at hsupported
    rcases hsupported with ⟨⟨hkey, hplain⟩, hhuman⟩
    split at h
    · cases h
    · next henabled =>
      split at h
      · cases h
      · next hentered =>
        rw [bne_iff_ne, not_not] at hentered
        refine ⟨⟨node, hnode, rfl, hplain, Bool.not_eq_true _ ▸ henabled, hhuman, ?_⟩, hentered⟩
        rcases hkey with haction | ⟨hterminate, hversion⟩
        · exact Or.inl haction
        · right
          rw [← hterminate, ← hversion]

theorem follows_nil {sourceNodeId : String} {owners : HandlerOwners} :
    Follows graph sourceNodeId none owners owners [] where
  entry := rfl
  steps := Or.inl rfl
  fresh := fun _ hmem => absurd hmem List.not_mem_nil
  owned := fun _ => (if_neg List.not_mem_nil).symm

/-- A step without an owner goes before the steps that its one link enters. -/
theorem follows_cons {sourceNodeId nodeId : String} {owners after : HandlerOwners}
    {chain : List String} (hfresh : ownerOf owners nodeId = none)
    (hstep : IsHandlerStep graph nodeId)
    (hrow : (edgesOutOf graph.edges nodeId).length ≤ 1)
    (hplain : forall link, link ∈ edgesOutOf graph.edges nodeId -> ¬ isFailureLink link = true)
    (h : Follows graph sourceNodeId ((edgesOutOf graph.edges nodeId).head?.map targetId)
      (owners.set (nodeId, sourceNodeId)) after chain) :
    Follows graph sourceNodeId (some nodeId) owners after (nodeId :: chain) := by
  have hchain : forall other, other ∈ chain -> other ≠ nodeId ∧ ownerOf owners other = none := by
    intro other hother
    have hnone := h.fresh other hother
    rw [ownerOf_set] at hnone
    split at hnone
    · cases hnone
    · next hne => exact ⟨hne, hnone⟩
  refine ⟨rfl, Or.inr ?_, ?_, ?_⟩
  · cases hleaves : edgesOutOf graph.edges nodeId with
    | nil =>
        have hentry := h.entry
        rw [hleaves] at hentry
        rw [List.head?_eq_none_iff.mp hentry]
        exact ⟨hstep, hleaves⟩
    | cons link others =>
        rw [hleaves, List.length_cons] at hrow
        obtain rfl : others = [] := List.length_eq_zero_iff.mp (by omega)
        have hentry := h.entry
        rw [hleaves] at hentry
        rcases h.steps with rfl | hhandler
        · cases hentry
        · cases chain with
          | nil => cases hentry
          | cons next rest =>
              have hnext : targetId link = next := (Option.some.inj hentry).symm
              have hlink := hplain link (hleaves ▸ List.mem_singleton_self link)
              exact ⟨hstep, ⟨link, hleaves, hnext, Bool.eq_false_iff.mpr hlink⟩, hhandler⟩
  · intro other hother
    rcases List.mem_cons.mp hother with rfl | hrest
    · exact hfresh
    · exact (hchain other hrest).right
  · intro other
    rw [h.owned, ownerOf_set]
    by_cases hsame : other = nodeId
    · rw [if_pos (List.mem_cons.mpr (Or.inl hsame)), if_pos hsame, ite_self]
    · rw [if_neg hsame]
      by_cases hmem : other ∈ chain
      · rw [if_pos hmem, if_pos (List.mem_cons_of_mem nodeId hmem)]
      · rw [if_neg hmem, if_neg (List.not_mem_cons_of_ne_of_not_mem hsame hmem)]

theorem follows_of_followHandler {sourceNodeId : String} {fuel : Nat} {next : Option String}
    {owners after : HandlerOwners} {handler found : List String}
    (h : followHandler (Keyed.ofList graph.nodes) graph.edges sourceNodeId fuel next owners
      handler = Except.ok (after, found)) :
    exists chain, found = handler ++ chain ∧
      Follows graph sourceNodeId next owners after chain := by
  induction fuel generalizing next owners handler with
  | zero =>
      cases next with
      | none =>
          cases h
          exact ⟨[], (List.append_nil _).symm, follows_nil⟩
      | some nodeId => cases h
  | succ fuel ih =>
      cases next with
      | none =>
          cases h
          exact ⟨[], (List.append_nil _).symm, follows_nil⟩
      | some nodeId =>
          rw [followHandler] at h
          split at h
          · cases h
          · next node hfound =>
            have hid : node.id = nodeId := Keyed.key_of_get? hfound
            have hnode : node ∈ graph.nodes := Keyed.mem_of_mem_ofList (Keyed.mem_of_get? hfound)
            split at h
            · cases h
            · next hfresh =>
              rw [Bool.or_eq_true, not_or, Bool.not_eq_true, Bool.not_eq_true] at hfresh
              have hunowned := has_eq_false_iff.mp hfresh.right
              rcases exists_of_bind_eq_ok h with ⟨_, hallowed, hleft⟩
              have hstep := isHandlerStep_of_permission hnode hallowed
              dsimp only at hleft
              split at hleft
              · cases hleft
              · next hrow =>
                rw [Bool.or_eq_true, not_or, Bool.not_eq_true, Bool.not_eq_true,
                  decide_eq_false_iff_not, List.any_eq_false] at hrow
                split at hleft
                · cases hleft
                · rcases ih hleft with ⟨chain, rfl, hchain⟩
                  refine ⟨node.id :: chain, ?_, ?_⟩
                  · rw [List.append_assoc, List.singleton_append]
                  · rw [← hid]
                    exact follows_cons hunowned hstep (Nat.le_of_not_lt hrow.left) hrow.right
                      hchain

/-!
## Handlers found so far
-/

structure IsRoute (graph : FailureRoutingGraph) (route : WorkflowFailureRoute) : Prop where
  source : exists node, node ∈ graph.nodes ∧ node.id = route.sourceNodeId ∧
    isWorkflowFailureSource node.record = true ∧ node.isStructured = false
  handler : IsHandler graph route.handlerNodeIds
  entry : route.handlerNodeIds.head? = some route.entryNodeId
  sink : route.handlerNodeIds.getLast? = some route.sinkNodeId

/-- Each failure link has its route, and the steps of the routes are the steps with owners. -/
structure Handlers (graph : FailureRoutingGraph) (done : List WorkflowEdge)
    (context : HandlerContext) : Prop where
  ends : context.routes.items.map (fun route => (route.sourceNodeId, route.entryNodeId)) =
    done.map fun link => (sourceId link, targetId link)
  routes : forall route, route ∈ context.routes -> IsRoute graph route
  owners : forall nodeId sourceNodeId, ownerOf context.owners nodeId = some sourceNodeId ↔
    exists route, route ∈ context.routes ∧ route.sourceNodeId = sourceNodeId ∧
      nodeId ∈ route.handlerNodeIds

theorem handlers_nil : Handlers graph [] {} where
  ends := rfl
  routes := fun route hroute => absurd hroute (Keyed.not_mem_empty route)
  owners := by
    intro nodeId sourceNodeId
    constructor
    · intro h
      cases h
    · rintro ⟨route, hroute, _⟩
      exact absurd hroute (Keyed.not_mem_empty route)

theorem Handlers.add {done : List WorkflowEdge} {context : HandlerContext}
    (h : Handlers graph done context) {failure : WorkflowEdge} {route : WorkflowFailureRoute}
    {owners : HandlerOwners} (hroute : IsRoute graph route)
    (hsource : route.sourceNodeId = sourceId failure)
    (hentry : route.entryNodeId = targetId failure)
    (hsingle : ¬ context.routes.has route.sourceNodeId = true)
    (hfollows : Follows graph route.sourceNodeId (some route.entryNodeId) context.owners owners
      route.handlerNodeIds) :
    Handlers graph (done ++ [failure])
      { owners := owners, routes := context.routes.set route } := by
  have hitems : (context.routes.set route).items = context.routes.items ++ [route] := by
    apply Keyed.set_items_of_fresh
    intro other hother hsame
    exact hsingle (Keyed.has_iff.mpr ⟨other, hother, hsame⟩)
  have hmemset : forall other, other ∈ context.routes.set route ↔
      other ∈ context.routes ∨ other = route := by
    intro other
    rw [Keyed.mem_def, hitems, List.mem_append, List.mem_singleton, Keyed.mem_def]
  refine ⟨?_, ?_, ?_⟩
  · rw [hitems, List.map_append, List.map_append, h.ends, List.map_singleton,
      List.map_singleton, hsource, hentry]
  · intro other hother
    rcases (hmemset other).mp hother with hold | rfl
    · exact h.routes other hold
    · exact hroute
  · intro nodeId sourceNodeId
    rw [hfollows.owned]
    constructor
    · intro howner
      split at howner
      · next hmem => exact ⟨route, (hmemset route).mpr (Or.inr rfl), Option.some.inj howner, hmem⟩
      · rcases (h.owners _ _).mp howner with ⟨other, hother, hrest⟩
        exact ⟨other, (hmemset other).mpr (Or.inl hother), hrest⟩
    · rintro ⟨other, hother, rfl, hmem⟩
      rcases (hmemset other).mp hother with hold | rfl
      · have howner := (h.owners nodeId _).mpr ⟨other, hold, rfl, hmem⟩
        split
        · next hfollowed =>
          rw [hfollows.fresh nodeId hfollowed] at howner
          cases howner
        · exact howner
      · exact if_pos hmem

theorem Handlers.step {done : List WorkflowEdge} {context next : HandlerContext}
    (h : Handlers graph done context) {failure : WorkflowEdge}
    (hnext : inspectHandler (Keyed.ofList graph.nodes) graph.edges graph.nodes.length context
      failure = Except.ok next) :
    Handlers graph (done ++ [failure]) next := by
  unfold inspectHandler at hnext
  split at hnext
  · cases hnext
  · next source hsource =>
    have hid : source.id = sourceId failure := Keyed.key_of_get? hsource
    have hnode := Keyed.mem_of_mem_ofList (Keyed.mem_of_get? hsource)
    split at hnext
    · cases hnext
    · next haction =>
      rw [Bool.or_eq_true, not_or, Bool.not_eq_true', Bool.not_eq_false, Bool.not_eq_true]
        at haction
      split at hnext
      · cases hnext
      · next hsingle =>
        rcases exists_of_bind_eq_ok hnext with ⟨⟨owners, handler⟩, hfollow, hroute⟩
        rcases follows_of_followHandler hfollow with ⟨chain, hchain, hfollows⟩
        obtain rfl : handler = chain := hchain
        dsimp only at hroute
        split at hroute
        · cases hroute
        · next sink hsink =>
          cases hroute
          have hhandler : IsHandler graph handler := by
            rcases hfollows.steps with rfl | hsteps
            · cases hfollows.entry
            · exact hsteps
          exact h.add ⟨⟨source, hnode, rfl, haction.left, haction.right⟩, hhandler,
            hfollows.entry, hsink⟩ hid rfl hsingle hfollows

theorem handlers_of_foldlM {failures done : List WorkflowEdge} {context final : HandlerContext}
    (h : Handlers graph done context)
    (hfold : failures.foldlM
      (inspectHandler (Keyed.ofList graph.nodes) graph.edges graph.nodes.length) context =
        Except.ok final) :
    Handlers graph (done ++ failures) final := by
  induction failures generalizing done context with
  | nil =>
      cases hfold
      rw [List.append_nil]
      exact h
  | cons failure rest ih =>
      rw [List.foldlM_cons] at hfold
      rcases exists_of_bind_eq_ok hfold with ⟨next, hnext, hrest⟩
      have hdone := ih (h.step hnext) hrest
      rw [List.append_assoc, List.singleton_append] at hdone
      exact hdone

/-!
## Main path and handlers together
-/

/-- The handlers of all failure links, none with a failure link of its own, and a tree beside. -/
structure IsSplit (graph : FailureRoutingGraph) (context : HandlerContext) (rootId : String) :
    Prop where
  handlers : Handlers graph (graph.edges.filter isFailureLink) context
  apart : forall route, route ∈ context.routes -> ownerOf context.owners route.sourceNodeId = none
  main : IsDecisionTree (mainNodes graph.nodes context.owners)
    (mainEdges graph.edges context.owners) rootId

variable {context : HandlerContext} {rootId : String}

theorem Handlers.exists_link_iff {failures : List WorkflowEdge}
    (h : Handlers graph failures context) {source entry : String} :
    (exists link, link ∈ failures ∧ sourceId link = source ∧ targetId link = entry) ↔
      exists route, route ∈ context.routes ∧ route.sourceNodeId = source ∧
        route.entryNodeId = entry := by
  have hends : (source, entry) ∈ failures.map (fun link => (sourceId link, targetId link)) ↔
      (source, entry) ∈ context.routes.items.map fun route =>
        (route.sourceNodeId, route.entryNodeId) := by
    rw [h.ends]
  simp only [List.mem_map, Prod.mk.injEq] at hends
  exact hends

theorem IsSplit.mem_mainEdges (h : IsSplit graph context rootId) {link : WorkflowEdge}
    (hlink : link ∈ graph.edges) (htarget : ownerOf context.owners (targetId link) = none) :
    link ∈ mainEdges graph.edges context.owners := by
  have hplain : isFailureLink link = false := by
    rw [Bool.eq_false_iff]
    intro hfailure
    rcases h.handlers.exists_link_iff.mp
      ⟨link, List.mem_filter.mpr ⟨hlink, hfailure⟩, rfl, rfl⟩ with ⟨route, hroute, _, hentry⟩
    have hmem := List.mem_of_head? (h.handlers.routes route hroute).entry
    have howner := (h.handlers.owners _ _).mpr ⟨route, hroute, rfl, hmem⟩
    rw [hentry, htarget] at howner
    cases howner
  have hmain : context.owners.has (sourceId link) = false := by
    rw [Bool.eq_false_iff]
    intro howned
    rcases has_owner_iff.mp howned with ⟨sourceNodeId, howner⟩
    rcases (h.handlers.owners _ _).mp howner with ⟨route, hroute, _, hmem⟩
    have hinside := ((h.handlers.routes route hroute).handler.target_mem hlink hmem).left
    have hkept := (h.handlers.owners _ _).mpr ⟨route, hroute, rfl, hinside⟩
    rw [htarget] at hkept
    cases hkept
  apply List.mem_filter.mpr ⟨hlink, _⟩
  rw [hplain, has_eq_false_iff.mpr htarget, hmain]
  rfl

theorem count_targets (edges : List WorkflowEdge) (nodeId : String) :
    (edges.map targetId).count nodeId = (edgesInto edges nodeId).length := by
  rw [List.count_eq_countP, List.countP_map, List.countP_eq_length_filter]
  rfl

theorem IsSplit.edgesInto_eq (h : IsSplit graph context rootId) {nodeId : String}
    (hfree : ownerOf context.owners nodeId = none) :
    edgesInto graph.edges nodeId = edgesInto (mainEdges graph.edges context.owners) nodeId := by
  unfold edgesInto mainEdges
  rw [List.filter_filter]
  apply List.filter_congr
  intro link hlink
  cases htarget : targetId link == nodeId with
  | false => rfl
  | true =>
      have hmain := h.mem_mainEdges hlink (beq_iff_eq.mp htarget ▸ hfree)
      rw [(List.mem_filter.mp hmain).right]
      rfl

theorem IsDecisionTree.isRooted {nodes : List DecisionTreeNode} {edges : List WorkflowEdge}
    (h : IsDecisionTree nodes edges rootId) : IsRooted targetId edges rootId := by
  rcases isDecisionTree_iff.mp h with ⟨_, _, _, root, _, rfl, _, hrooted, _⟩
  exact hrooted

theorem IsSplit.ownerOf_root (h : IsSplit graph context rootId) :
    ownerOf context.owners rootId = none := by
  rcases h.main.root with ⟨root, hroot, hid, _⟩
  rcases List.mem_map.mp hroot with ⟨node, hnode, rfl⟩
  rw [← hid]
  apply has_eq_false_iff.mp
  rw [← Bool.not_eq_true']
  exact (List.mem_filter.mp hnode).right

theorem IsSplit.isRooted (h : IsSplit graph context rootId) :
    IsRooted targetId graph.edges rootId := by
  constructor
  · rw [List.nodup_iff_count_le_one]
    intro nodeId
    rw [count_targets]
    cases howner : ownerOf context.owners nodeId with
    | none =>
        rw [h.edgesInto_eq howner, ← count_targets]
        exact List.nodup_iff_count_le_one.mp h.main.isRooted.entered_once nodeId
    | some sourceNodeId =>
        rcases (h.handlers.owners _ _).mp howner with ⟨route, hroute, _, hmem⟩
        exact Nat.le_of_eq ((h.handlers.routes route hroute).handler.step hmem).entered
  · intro hentered
    rcases List.mem_map.mp hentered with ⟨link, hlink, htarget⟩
    apply h.main.isRooted.not_entered
    rw [← htarget]
    exact List.mem_map_of_mem (h.mem_mainEdges hlink (htarget ▸ h.ownerOf_root))

theorem linkEnds_subset (edges : List WorkflowEdge) (owners : HandlerOwners) :
    linkEnds (mainEdges edges owners) ⊆ linkEnds edges :=
  List.map_subset _ List.filter_sublist.subset

theorem IsSplit.exists_walk (h : IsSplit graph context rootId) {node : RoutingNode}
    (hnode : node ∈ graph.nodes) :
    exists path, IsWalk sourceId targetId graph.edges rootId path node.id := by
  have hmain : forall step, step ∈ graph.nodes -> ownerOf context.owners step.id = none ->
      Relation.ReflTransGen (fun before after => (before, after) ∈ linkEnds graph.edges) rootId
        step.id := by
    intro step hstep hfree
    have hkept : step.toDecision ∈ mainNodes graph.nodes context.owners := by
      apply List.mem_map_of_mem
      apply List.mem_filter.mpr ⟨hstep, _⟩
      rw [Bool.not_eq_true', has_eq_false_iff]
      exact hfree
    have hwalk := exists_isWalk_iff.mp (h.main.walks _ hkept).exists
    exact Relation.ReflTransGen.mono (fun _ _ hlink => linkEnds_subset _ _ hlink) _ _ hwalk
  apply exists_isWalk_iff.mpr
  cases howner : ownerOf context.owners node.id with
  | none => exact hmain node hnode howner
  | some sourceNodeId =>
      rcases (h.handlers.owners _ _).mp howner with ⟨route, hroute, _, hmem⟩
      have hvalid := h.handlers.routes route hroute
      rcases hvalid.source with ⟨source, hsource, hid, _⟩
      rcases h.handlers.exists_link_iff.mpr ⟨route, hroute, rfl, rfl⟩ with
        ⟨link, hlink, hleaves, henters⟩
      have hreached := hmain source hsource (hid ▸ h.apart route hroute)
      have hentered : (source.id, route.entryNodeId) ∈ linkEnds graph.edges := by
        rw [hid, ← hleaves, ← henters]
        exact List.mem_map_of_mem (List.mem_of_mem_filter hlink)
      apply (hreached.tail hentered).trans
      cases hsteps : route.handlerNodeIds with
      | nil =>
          rw [hsteps] at hmem
          cases hmem
      | cons entry rest =>
          have hentry := hvalid.entry
          have hhandler := hvalid.handler
          rw [hsteps] at hentry hhandler hmem
          rw [← Option.some.inj hentry]
          exact hhandler.leads hmem

/-- Failure data is read by the entry of a handler, and only its source's own fields. -/
def ReadsFailure (routes : FailureRouteMap) (node : RoutingNode) (mapping : Mapping) : Prop :=
  exists route, route ∈ routes ∧ route.entryNodeId = node.id ∧
    mapping.nodeId = some route.sourceNodeId ∧
    exists path, mapping.path = some path ∧ path ∈ workflowFailurePaths

theorem readsFailure_of_ok {node : RoutingNode} {mapping : Mapping}
    (h : inspectHandlerMapping context node.id mapping = Except.ok ())
    (hkind : mapping.kind = "node_failure") : ReadsFailure context.routes node mapping := by
  unfold inspectHandlerMapping at h
  dsimp only at h
  split at h
  · cases h
  · next hallowed =>
    rw [hkind, beq_self_eq_true, Bool.true_and, Bool.or_eq_true, Bool.or_eq_true, not_or, not_or,
      bne_iff_ne, not_not, bne_iff_ne, not_not, Bool.not_eq_true', Bool.not_eq_false,
      List.contains_iff_mem] at hallowed
    rcases hallowed with ⟨⟨hentry, hsource⟩, hpath⟩
    rcases Option.map_eq_some_iff.mp hentry with ⟨route, hroute, hid⟩
    rcases Option.bind_eq_some_iff.mp hroute with ⟨sourceNodeId, howner, hfound⟩
    refine ⟨route, Keyed.mem_of_get? hfound, hid, ?_, ?_⟩
    · rw [hsource, howner, Keyed.key_of_get? hfound]
    · cases hgiven : mapping.path with
      | none =>
          rw [hgiven] at hpath
          exact absurd hpath (by decide)
      | some path =>
          rw [hgiven] at hpath
          exact ⟨path, rfl, hpath⟩

/-!
## Graphs without failures
-/

inductive FailureFree : FailureRoutingGraph -> Prop where
  | intro {graph : FailureRoutingGraph}
      (links : forall link, link ∈ graph.edges -> isFailureLink link = false)
      (data : forall node, node ∈ graph.nodes -> readsFailure node = false)
      (result : forall result, graph.callableResult = some result ->
        result.kind ≠ "node_failure")
      (bodies : forall record inputMappings nodes edges callableResult,
        RoutingNode.forEach record inputMappings nodes edges callableResult ∈ graph.nodes ->
          FailureFree { nodes := nodes, edges := edges, callableResult := callableResult }) :
      FailureFree graph

def BodyIsFree (node : RoutingNode) : Prop :=
  forall record inputMappings nodes edges callableResult,
    node = .forEach record inputMappings nodes edges callableResult ->
      FailureFree { nodes := nodes, edges := edges, callableResult := callableResult }

theorem inspectLevel_eq_ordinary_iff (graph : FailureRoutingGraph) (ordinary : Bool) :
    inspectLevel graph ordinary = .ordinary ↔
      ordinary = true ∧
        (forall result, graph.callableResult = some result -> result.kind ≠ "node_failure") ∧
        (forall link, link ∈ graph.edges -> isFailureLink link = false) ∧
        forall node, node ∈ graph.nodes -> readsFailure node = false := by
  have hresult : (graph.callableResult.any fun result => result.kind == "node_failure") = false ↔
      forall result, graph.callableResult = some result -> result.kind ≠ "node_failure" := by
    cases graph.callableResult with
    | none => simp
    | some result => simp
  have hlinks : (graph.edges.filter isFailureLink).isEmpty = true ↔
      forall link, link ∈ graph.edges -> isFailureLink link = false := by
    rw [List.isEmpty_iff, List.filter_eq_nil_iff]
    exact forall₂_congr fun _ _ => Bool.eq_false_iff.symm
  have hdata : graph.nodes.any readsFailure = false ↔
      forall node, node ∈ graph.nodes -> readsFailure node = false := by
    rw [List.any_eq_false]
    exact forall₂_congr fun _ _ => Bool.eq_false_iff.symm
  rw [← hresult, ← hlinks, ← hdata]
  unfold inspectLevel
  dsimp only
  cases ordinary with
  | false => simp
  | true =>
      cases graph.callableResult.any fun result => result.kind == "node_failure" with
      | true => simp
      | false =>
          cases (graph.edges.filter isFailureLink).isEmpty with
          | true =>
              cases graph.nodes.any readsFailure with
              | true => simp
              | false => simp
          | false =>
              cases inspectRoutes graph (graph.edges.filter isFailureLink) with
              | error message => simp
              | ok value => simp

theorem failureFree_iff {graph : FailureRoutingGraph} {ordinary : Bool}
    (h : ordinary = true ↔ forall node, node ∈ graph.nodes -> BodyIsFree node) :
    inspectLevel graph ordinary = .ordinary ↔ FailureFree graph := by
  rw [inspectLevel_eq_ordinary_iff, h]
  constructor
  · rintro ⟨hbodies, hresult, hlinks, hdata⟩
    refine .intro hlinks hdata hresult ?_
    intro record inputMappings nodes edges callableResult hnode
    exact hbodies _ hnode record inputMappings nodes edges callableResult rfl
  · rintro ⟨hlinks, hdata, hresult, hbodies⟩
    refine ⟨?_, hresult, hlinks, hdata⟩
    rintro node hnode record inputMappings nodes edges callableResult rfl
    exact hbodies _ _ _ _ _ hnode

theorem isOrdinary_iff {inspection : FailureRoutingInspection} :
    inspection.isOrdinary = true ↔ inspection = .ordinary := by
  cases inspection with
  | ordinary => exact ⟨fun _ => rfl, fun _ => rfl⟩
  | invalid message => exact ⟨fun h => absurd h Bool.false_ne_true, fun h => by cases h⟩
  | routed value => exact ⟨fun h => absurd h Bool.false_ne_true, fun h => by cases h⟩

mutual

theorem bodyIsOrdinary_iff : forall node : RoutingNode,
    bodyIsOrdinary node = true ↔ BodyIsFree node
  | .step record inputMappings => by
      constructor
      · intro _ _ _ _ _ _ hnode
        cases hnode
      · intro _
        rfl
  | .forEach record inputMappings nodes edges callableResult => by
      rw [bodyIsOrdinary, isOrdinary_iff, failureFree_iff (bodiesAreOrdinary_iff nodes)]
      constructor
      · rintro hfree _ _ _ _ _ ⟨⟩
        exact hfree
      · intro hbody
        exact hbody _ _ _ _ _ rfl

theorem bodiesAreOrdinary_iff : forall nodes : List RoutingNode,
    bodiesAreOrdinary nodes = true ↔ forall node, node ∈ nodes -> BodyIsFree node
  | [] => by
      constructor
      · intro _ node hnode
        cases hnode
      · intro _
        rfl
  | node :: rest => by
      rw [bodiesAreOrdinary, Bool.and_eq_true, bodyIsOrdinary_iff node,
        bodiesAreOrdinary_iff rest, List.forall_mem_cons]

end

/-!
## Accepted graphs
-/

structure IsFailureRouted (graph : FailureRoutingGraph) (value : WorkflowFailureRoutes) :
    Prop where
  split : IsSplit graph { owners := value.handlerOwners, routes := value.routes }
    value.main.rootId
  walks : forall node, node ∈ graph.nodes ->
    ∃! path, IsWalk sourceId targetId graph.edges value.main.rootId path node.id
  data : forall node, node ∈ graph.nodes -> forall mapping, mapping ∈ node.inputMappings ->
    mapping.snd.kind = "node_failure" -> ReadsFailure value.routes node mapping.snd

theorem isFailureRouted_of_inspectRoutes {value : WorkflowFailureRoutes}
    (h : inspectRoutes graph (graph.edges.filter isFailureLink) = Except.ok value) :
    IsFailureRouted graph value := by
  rcases exists_of_bind_eq_ok h with ⟨context, hfold, hrest⟩
  have hhandlers := handlers_of_foldlM handlers_nil hfold
  rw [List.nil_append] at hhandlers
  split at hrest
  · cases hrest
  · next hapart =>
    rw [Bool.not_eq_true, List.any_eq_false] at hapart
    split at hrest
    · cases hrest
    · next main hmain =>
      rcases exists_of_bind_eq_ok hrest with ⟨_, hmappings, hvalue⟩
      cases hvalue
      have hsplit : IsSplit graph context main.rootId := by
        refine ⟨hhandlers, ?_, (isDecisionTree_of_inspect hmain).left⟩
        intro route hroute
        exact has_eq_false_iff.mp (Bool.eq_false_iff.mpr (hapart route hroute))
      refine ⟨hsplit, ?_, ?_⟩
      · intro node hnode
        rcases hsplit.exists_walk hnode with ⟨path, hpath⟩
        exact ⟨path, hpath, fun other hother => hsplit.isRooted.walk_unique hother hpath⟩
      · intro node hnode mapping hmapping hkind
        have hchecked := forM_eq_ok_iff.mp (forM_eq_ok_iff.mp hmappings node hnode) mapping
          hmapping
        exact readsFailure_of_ok hchecked hkind

/-- Without failures a graph is ordinary; a graph with failure links that is accepted is one
tree, in which each failure link opens a handler of its own. -/
theorem failure_routes_sound (graph : FailureRoutingGraph) :
    (inspectWorkflowFailureRoutes graph = .ordinary ↔ FailureFree graph) ∧
      forall value, inspectWorkflowFailureRoutes graph = .routed value ->
        IsFailureRouted graph value := by
  constructor
  · exact failureFree_iff (bodiesAreOrdinary_iff graph.nodes)
  · intro value h
    unfold inspectWorkflowFailureRoutes inspectLevel at h
    split at h
    · cases h
    · split at h
      · cases h
      · dsimp only at h
        split at h
        · split at h
          · cases h
          · cases h
        · split at h
          · cases h
          · next found hroutes =>
            cases h
            exact isFailureRouted_of_inspectRoutes hroutes

/-- A trigger, an action and the action that handles its failure. -/
def routedSample : FailureRoutingGraph where
  nodes :=
    [.step { id := "start", definition := { key := "core.manual", version := 1 } } [],
      .step { id := "fetch", definition := { key := "http.request", version := 1 } } [],
      .step { id := "notify", definition := { key := "mail.send", version := 1 } }
        [("error", { kind := "node_failure", nodeId := some "fetch", path := some "$" })]]
  edges :=
    [{ id := "e1", source := ⟨"start", "out"⟩, target := ⟨"fetch", "in"⟩ },
      { id := "e2", source := ⟨"fetch", workflowFailurePort⟩, target := ⟨"notify", "in"⟩ }]

theorem failure_routes_sound_sample :
    exists value, inspectWorkflowFailureRoutes routedSample = .routed value ∧
      IsFailureRouted routedSample value := by
  have hroutes : (inspectRoutes routedSample
      (routedSample.edges.filter isFailureLink)).isOk = true := by
    decide
  rcases exists_of_isOk hroutes with ⟨value, hvalue⟩
  have hrouted : inspectWorkflowFailureRoutes routedSample = .routed value := by
    unfold inspectWorkflowFailureRoutes inspectLevel
    rw [if_neg (by decide), if_neg (by decide)]
    dsimp only
    rw [if_neg (by decide), hvalue]
  exact ⟨value, hrouted, (failure_routes_sound routedSample).right value hrouted⟩

end

end DecisionTrees
end Pertexo
